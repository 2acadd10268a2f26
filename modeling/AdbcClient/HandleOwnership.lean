import AdbcClient.ObjectStore
import AdbcClient.Runs

/-!
# Handles

`Handle` owns what a driver has put behind its pointer: a database, a connection, a
statement, an error, a schema or a stream (`adbc_util.hpp`).  A handle is empty if its bytes
are zero, and its operations copy the bytes of one and clear those of another.

`Conserved` is the invariant of any number of handles: every resource that was acquired is
held by a handle, was released by one, was handed out, or was lost, and only one of these,
once.  It is lost if a driver writes over it, since `get()` does not release what is there.
`handles_own_once` is what follows for runs.
-/
namespace AdbcClient
open Runs ObjectStore

/-- `Handle<Resource>`, where `none` are zero bytes and a resource is what `private_data` points
to. -/
abbrev Handle (ρ : Type) := Option ρ

namespace Handle
variable {ρ : Type}

/-- What `Initializer::Initialize` leaves: a handle that owns nothing. -/
def zeroed : Handle ρ := none

/-- `Releaser::Release`: what it releases, if the handle is not empty. -/
def released (value : Handle ρ) : List ρ := value.toList

/-- `Handle(Handle &&other)`: the new handle, and the other one. -/
def moveConstruct (other : Handle ρ) : Handle ρ × Handle ρ := (other, zeroed)

/-- `operator=(Handle &&other)` for `this != &other`: what is released, the handle, and the
other one. -/
def moveAssign (value other : Handle ρ) : List ρ × Handle ρ × Handle ρ :=
  (released value, other, zeroed)

/-- `release()`: what is returned, and the handle. -/
def release (value : Handle ρ) : List ρ × Handle ρ := (value.toList, zeroed)

/-- `reset()`: what is released, and the handle. -/
def reset (value : Handle ρ) : List ρ × Handle ρ := (released value, zeroed)

end Handle

namespace HandleOwnership
variable {κ ρ : Type} [DecidableEq κ]

/-- What is done with handles.  A driver acquires a resource by writing it behind the pointer
that `get()` returns. -/
inductive Operation (κ ρ : Type) where
  | construct (h : κ)
  | acquire (h : κ) (resource : ρ)
  | moveConstruct (h other : κ)
  | moveAssign (h other : κ)
  | release (h : κ)
  | reset (h : κ)
  | destroy (h : κ)

/-- The handles, and what has become of resources that they do not hold. -/
structure World (κ ρ : Type) where
  handles : AList fun _ : κ => Handle ρ
  acquired : List ρ
  released : List ρ
  handedOut : List ρ
  overwritten : List ρ

/-- The world without handles, in which no resource has been acquired. -/
def start : World κ ρ := ⟨∅, [], [], [], []⟩

/-- What an operation does.  One on a handle that does not exist does nothing. -/
def next (w : World κ ρ) : Operation κ ρ → World κ ρ
  | .construct h => { w with handles := w.handles.insert h Handle.zeroed }
  | .acquire h resource =>
    match w.handles.lookup h with
    | none => w
    | some value =>
      { w with
        handles := w.handles.insert h (some resource)
        acquired := resource :: w.acquired
        overwritten := value.toList ++ w.overwritten }
  | .moveConstruct h other =>
    match w.handles.lookup other with
    | none => w
    | some value =>
      let (new, other') := Handle.moveConstruct value
      { w with handles := (w.handles.insert other other').insert h new }
  | .moveAssign h other =>
    if h = other then w
    else
      match w.handles.lookup h, w.handles.lookup other with
      | some value, some moved =>
        let (released, value', other') := Handle.moveAssign value moved
        { w with
          handles := (w.handles.insert other other').insert h value'
          released := released ++ w.released }
      | _, _ => w
  | .release h =>
    match w.handles.lookup h with
    | none => w
    | some value =>
      let (returned, value') := value.release
      { w with
        handles := w.handles.insert h value'
        handedOut := returned ++ w.handedOut }
  | .reset h =>
    match w.handles.lookup h with
    | none => w
    | some value =>
      let (released, value') := value.reset
      { w with
        handles := w.handles.insert h value'
        released := released ++ w.released }
  | .destroy h =>
    match w.handles.lookup h with
    | none => w
    | some value =>
      { w with
        handles := w.handles.erase h
        released := value.released ++ w.released }

/-- Handles are constructed before they are used and destroyed after that, and what a driver
acquires is new. -/
def Admissible (w : World κ ρ) : Operation κ ρ → Prop
  | .construct h => h ∉ w.handles
  | .acquire h resource => h ∈ w.handles ∧ resource ∉ w.acquired
  | .moveConstruct h other => h ∉ w.handles ∧ other ∈ w.handles
  | .moveAssign h other => h ∈ w.handles ∧ other ∈ w.handles
  | .release h => h ∈ w.handles
  | .reset h => h ∈ w.handles
  | .destroy h => h ∈ w.handles

instance [DecidableEq ρ] (w : World κ ρ) (op : Operation κ ρ) : Decidable (Admissible w op) :=
  match op with
  | .construct h => inferInstanceAs (Decidable (h ∉ w.handles))
  | .acquire h r => inferInstanceAs (Decidable (h ∈ w.handles ∧ r ∉ w.acquired))
  | .moveConstruct h other => inferInstanceAs (Decidable (h ∉ w.handles ∧ other ∈ w.handles))
  | .moveAssign h other => inferInstanceAs (Decidable (h ∈ w.handles ∧ other ∈ w.handles))
  | .release h | .reset h | .destroy h => inferInstanceAs (Decidable (h ∈ w.handles))

/-- The resources that the handles hold, each as often as a handle has it. -/
def World.held (w : World κ ρ) : List ρ := ObjectStore.held Option.toList w.handles

/-- Everything that has become of resources: held by a handle, released, handed out, or
overwritten. -/
def World.placed (w : World κ ρ) : List ρ :=
  w.held ++ (w.released ++ (w.handedOut ++ w.overwritten))

/-- **The invariant**: every acquired resource is in one place. -/
structure Conserved (w : World κ ρ) : Prop where
  distinct : w.acquired.Nodup
  placed : w.placed.Perm w.acquired

omit [DecidableEq κ] in
theorem conserved_start : Conserved (start : World κ ρ) := ⟨List.nodup_nil, List.Perm.refl _⟩

variable {w : World κ ρ} {h other : κ}

section Counting
variable [DecidableEq ρ]

omit [DecidableEq κ] in
/-- What leaves a handle is put down somewhere else. -/
theorem Conserved.put (hw : Conserved w) {handles : AList fun _ : κ => Handle ρ}
    {released handedOut : List ρ}
    (hput : ∀ x, (ObjectStore.held Option.toList handles).count x + released.count x +
      handedOut.count x = w.held.count x + w.released.count x + w.handedOut.count x) :
    Conserved { w with handles := handles, released := released, handedOut := handedOut } := by
  refine ⟨hw.distinct, List.perm_iff_count.mpr fun x => ?_⟩
  have hplaced := hw.placed.count_eq x
  have hx := hput x
  rw [World.placed] at hplaced ⊢
  rw [World.held]
  simp only [List.count_append] at hplaced ⊢
  omega

/-- A handle that is emptied holds its resource once less, and the others what they held. -/
theorem count_emptied {value : Handle ρ} (hh : w.handles.lookup h = some value) (x : ρ) :
    (ObjectStore.held Option.toList (w.handles.insert h Handle.zeroed)).count x +
      value.toList.count x = w.held.count x := by
  have hreplace := (held_replace Option.toList (b := Handle.zeroed) hh).count_eq x
  rw [World.held]
  simp only [List.count_append, Handle.zeroed, Option.toList_none, List.count_nil] at hreplace ⊢
  omega

/-- A handle that is destroyed holds its resource once less, and the others what they held. -/
theorem count_erased {value : Handle ρ} (hh : w.handles.lookup h = some value) (x : ρ) :
    (ObjectStore.held Option.toList (w.handles.erase h)).count x + value.toList.count x =
      w.held.count x := by
  have herase := (held_erase Option.toList hh).count_eq x
  rw [World.held, herase, List.count_append, Nat.add_comm]

/-- A handle that takes over what another one holds. -/
theorem count_assigned {value moved : Handle ρ} (hne : h ≠ other)
    (hh : w.handles.lookup h = some value) (hother : w.handles.lookup other = some moved) (x : ρ) :
    (ObjectStore.held Option.toList ((w.handles.insert other Handle.zeroed).insert h moved)).count x
      + value.toList.count x = w.held.count x := by
  have hemptied := count_emptied hother x
  have hh' : (w.handles.insert other Handle.zeroed).lookup h = some value :=
    (AList.lookup_insert_ne hne).trans hh
  have hreplace := (held_replace Option.toList (b := moved) hh').count_eq x
  simp only [List.count_append] at hreplace
  omega

/-- **An acquisition.**  What is written over is lost. -/
theorem Conserved.acquire (hw : Conserved w) {resource : ρ} (hh : h ∈ w.handles)
    (hnew : resource ∉ w.acquired) : Conserved (next w (.acquire h resource)) := by
  obtain ⟨value, hvalue⟩ := exists_lookup hh
  simp only [next, hvalue]
  refine ⟨List.nodup_cons.mpr ⟨hnew, hw.distinct⟩, List.perm_iff_count.mpr fun x => ?_⟩
  have hreplace := (held_replace Option.toList (b := some resource) hvalue).count_eq x
  have hplaced := hw.placed.count_eq x
  rw [World.placed, World.held] at hplaced
  rw [World.placed, World.held, ← List.singleton_append]
  simp only [List.count_append, Option.toList_some] at hreplace hplaced ⊢
  omega

end Counting

/-- **One operation** keeps the account of the resources. -/
theorem Conserved.next (hw : Conserved w) {op : Operation κ ρ} (hop : Admissible w op) :
    Conserved (next w op) := by
  classical
  cases op with
  | construct h =>
    refine hw.put fun x => ?_
    rw [held_insert hop]
    rfl
  | acquire h resource => exact hw.acquire hop.1 hop.2
  | moveConstruct h other =>
    obtain ⟨value, hvalue⟩ := exists_lookup hop.2
    simp only [HandleOwnership.next, hvalue, Handle.moveConstruct]
    refine hw.put fun x => ?_
    rw [(held_move _ hvalue hop.1).count_eq x]
    rfl
  | moveAssign h other =>
    obtain ⟨value, hvalue⟩ := exists_lookup hop.1
    obtain ⟨moved, hmoved⟩ := exists_lookup hop.2
    by_cases hself : h = other
    · rw [HandleOwnership.next, if_pos hself]
      exact hw
    · simp only [HandleOwnership.next, if_neg hself, hvalue, hmoved, Handle.moveAssign]
      refine hw.put fun x => ?_
      have hassigned := count_assigned hself hvalue hmoved x
      rw [Handle.released, List.count_append]
      omega
  | release h =>
    obtain ⟨value, hvalue⟩ := exists_lookup hop
    simp only [HandleOwnership.next, hvalue, Handle.release]
    refine hw.put fun x => ?_
    have hemptied := count_emptied hvalue x
    rw [List.count_append]
    omega
  | reset h =>
    obtain ⟨value, hvalue⟩ := exists_lookup hop
    simp only [HandleOwnership.next, hvalue, Handle.reset]
    refine hw.put fun x => ?_
    have hemptied := count_emptied hvalue x
    rw [Handle.released, List.count_append]
    omega
  | destroy h =>
    obtain ⟨value, hvalue⟩ := exists_lookup hop
    simp only [HandleOwnership.next, hvalue]
    refine hw.put fun x => ?_
    have herased := count_erased hvalue x
    rw [Handle.released, List.count_append]
    omega

/-! ## What becomes of resources -/

/-- Handles are acquired into only when they are empty. -/
def AcquiresEmpty (w : World κ ρ) : Operation κ ρ → Prop
  | .acquire h _ => w.handles.lookup h = some Handle.zeroed
  | _ => True

/-- **Every acquired resource is held by a handle, was released by one or was handed out, and
only one of these, once.** -/
def ReleasedOnce [DecidableEq ρ] (w : World κ ρ) : Prop :=
  ∀ r ∈ w.acquired, w.held.count r + w.released.count r + w.handedOut.count r = 1

/-- The same of the resources that are not lost, with what it says of the handles. -/
structure OwnedOnce [DecidableEq ρ] (w : World κ ρ) : Prop where
  place : ∀ r ∈ w.acquired,
    w.held.count r + w.released.count r + w.handedOut.count r + w.overwritten.count r = 1
  holder : ∀ h h' r, w.handles.lookup h = some (some r) → w.handles.lookup h' = some (some r) →
    h = h'
  acquired : ∀ h r, w.handles.lookup h = some (some r) → r ∈ w.acquired
  destroyed : w.handles = ∅ → ∀ r ∈ w.acquired,
    w.released.count r + w.handedOut.count r + w.overwritten.count r = 1

theorem Conserved.ownedOnce [DecidableEq ρ] (hw : Conserved w) : OwnedOnce w := by
  have hplace : ∀ r ∈ w.acquired,
      w.held.count r + w.released.count r + w.handedOut.count r + w.overwritten.count r = 1 := by
    intro r hr
    have hplaced := hw.placed.count_eq r
    rw [List.count_eq_one_of_mem hw.distinct hr, World.placed] at hplaced
    simp only [List.count_append] at hplaced
    omega
  refine ⟨hplace, fun h h' r hh hh' => ?_, fun h r hh => ?_, fun hnone r hr => ?_⟩
  · have hnodup := hw.placed.nodup_iff.mpr hw.distinct
    rw [World.placed] at hnodup
    exact holder_unique (i := r) (List.nodup_append.mp hnodup).1 hh (by simp) hh' (by simp)
  · refine hw.placed.mem_iff.mp (List.mem_append_left _ ?_)
    exact mem_held.mpr ⟨h, some r, hh, by simp⟩
  · have hr' := hplace r hr
    rw [World.held, hnone] at hr'
    simpa using hr'

/-- No resource is lost if each is released or handed out. -/
theorem Conserved.releasedOnce_iff [DecidableEq ρ] (hw : Conserved w) :
    ReleasedOnce w ↔ w.overwritten = [] := by
  constructor
  · intro h
    refine List.eq_nil_iff_forall_not_mem.mpr fun r hr => ?_
    have hmem : r ∈ w.acquired :=
      hw.placed.mem_iff.mp (by simp [World.placed, hr])
    have hone := h r hmem
    have hplace := hw.ownedOnce.place r hmem
    have hlost := List.count_pos_iff.mpr hr
    omega
  · intro hnil r hr
    have hplace := hw.ownedOnce.place r hr
    rw [hnil, List.count_nil] at hplace
    exact hplace

/-- Only an acquisition can lose a resource. -/
theorem overwritten_next_iff (hnone : w.overwritten = []) {op : Operation κ ρ}
    (hop : Admissible w op) : (next w op).overwritten = [] ↔ AcquiresEmpty w op := by
  cases op with
  | acquire h resource =>
    obtain ⟨value, hvalue⟩ := exists_lookup hop.1
    simp only [next, hvalue, hnone, List.append_nil, AcquiresEmpty, Option.some.injEq]
    cases value with
    | none => exact iff_of_true rfl rfl
    | some r => exact iff_of_false (by simp) (by simp [Handle.zeroed])
  | construct h => exact iff_of_true hnone trivial
  | moveConstruct h other =>
    obtain ⟨value, hvalue⟩ := exists_lookup hop.2
    exact iff_of_true (by simpa only [next, hvalue] using hnone) trivial
  | moveAssign h other =>
    obtain ⟨value, hvalue⟩ := exists_lookup hop.1
    obtain ⟨moved, hmoved⟩ := exists_lookup hop.2
    refine iff_of_true ?_ trivial
    rw [next]
    split
    · exact hnone
    · simpa only [hvalue, hmoved] using hnone
  | release h | reset h | destroy h =>
    obtain ⟨value, hvalue⟩ := exists_lookup hop
    exact iff_of_true (by simpa only [next, hvalue] using hnone) trivial

/-- **What becomes of resources in every run.**  Each is in one place: with a handle, released,
handed out or lost.  Those that were not lost have been released once or handed out once when the
handles are destroyed, and none is lost if and only if drivers acquire into empty handles only. -/
theorem handles_own_once [DecidableEq ρ] {ops : List (Operation κ ρ)}
    (hops : Meets next Admissible start ops) :
    OwnedOnce (run next start ops) ∧
      (Visits next ReleasedOnce start ops ↔ Meets next AcquiresEmpty start ops) := by
  constructor
  · have hconserved : Conserved (run next start ops) :=
      hops.invariant (fun w op hw hop => hw.next hop) conserved_start
    exact hconserved.ownedOnce
  · refine visits_iff_meets (I := Conserved) (fun w op hw hop => hw.next hop)
      (fun w op hw hop hone => ?_) conserved_start ?_ hops
    · rw [(hw.next hop).releasedOnce_iff]
      exact overwritten_next_iff (hw.releasedOnce_iff.mp hone) hop
    · exact conserved_start.releasedOnce_iff.mpr rfl

/-- A statement that replaces another one, and is handed out. -/
theorem replaced_statement_once :
    OwnedOnce (run next (start : World Nat Nat) [.construct 0, .acquire 0 10, .construct 1,
      .acquire 1 11, .moveAssign 0 1, .moveAssign 0 0, .release 0, .destroy 1, .destroy 0]) :=
  (handles_own_once (by decide)).1

/-- A driver that acquires twice into one handle: what the handle held before is lost. -/
theorem second_acquisition_loses :
    Meets next Admissible (start : World Nat Nat)
        [.construct 0, .acquire 0 10, .acquire 0 11, .destroy 0] ∧
      ¬ ReleasedOnce (run next (start : World Nat Nat)
        [.construct 0, .acquire 0 10, .acquire 0 11, .destroy 0]) := by
  refine ⟨by decide, fun h => ?_⟩
  exact absurd (h 10 (by decide)) (by decide)

end HandleOwnership
end AdbcClient
