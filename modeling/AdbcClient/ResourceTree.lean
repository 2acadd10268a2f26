import AdbcClient.Runs
import Mathlib.Data.List.Perm.Basic
import Mathlib.Data.List.Nodup

/-!
# Resources that depend on each other

A resource is opened, used and closed, and may have a parent without which it cannot be used.
`Legal` is what a sequence of such events has to be: what is used or closed is open, a parent
is open when a child is opened, and it is closed after its children.

`opened_cases`, `Legal.children_first` and `Legal.not_after` are what follows for every legal
sequence.  `Owns` says that a sequence is legal and which resources are open after it, in any
order; its rules are those by which a component that opens and closes resources is verified
piece by piece, with the resources of all others as a frame (`Grounded`).
-/
namespace ResourceTree
open Runs

variable {ι : Type}

/-- What is done with resources: one is opened, on another one or on nothing, used, or closed. -/
inductive Event (ι : Type) where
  | opened (r : ι) (parent : Option ι)
  | used (r : ι)
  | closed (r : ι)
  deriving DecidableEq

/-- The open resources with their parents, and the closed ones. -/
structure Registry (ι : Type) where
  live : List (ι × Option ι)
  closed : List ι

/-- The registry in which nothing is open yet, and nothing was closed. -/
def start : Registry ι := ⟨[], []⟩

/-- The resources in a list of resources and parents. -/
abbrev ids (F : List (ι × Option ι)) : List ι := F.map Prod.fst

/-- All parents are in the list: what is open is not on something that is not. -/
def Grounded (F : List (ι × Option ι)) : Prop := ∀ x ∈ F, ∀ p ∈ x.2, p ∈ ids F

theorem Grounded.cons {F : List (ι × Option ι)} {r : ι} {parent : Option ι} (hF : Grounded F)
    (hparent : ∀ p ∈ parent, p ∈ ids F) : Grounded ((r, parent) :: F) := by
  intro x hx p hp
  rcases List.mem_cons.mp hx with rfl | hx
  · exact List.mem_cons_of_mem _ (hparent p hp)
  · exact List.mem_cons_of_mem _ (hF x hx p hp)

theorem Grounded.append {F G : List (ι × Option ι)} (hF : Grounded F) (hG : Grounded G) :
    Grounded (F ++ G) := by
  intro x hx p hp
  rw [ids, List.map_append]
  rcases List.mem_append.mp hx with hx | hx
  · exact List.mem_append_left _ (hF x hx p hp)
  · exact List.mem_append_right _ (hG x hx p hp)

variable [DecidableEq ι]

/-- What an event leaves of the registry of open and closed resources. -/
def next (s : Registry ι) : Event ι → Registry ι
  | .opened r parent => { s with live := (r, parent) :: s.live }
  | .used _ => s
  | .closed r => ⟨s.live.filter (·.1 ≠ r), r :: s.closed⟩

/-- What may happen: new resources on open ones, uses of open ones, and the end of one without
children. -/
def Allowed (s : Registry ι) : Event ι → Prop
  | .opened r parent => r ∉ ids s.live ∧ r ∉ s.closed ∧ ∀ p ∈ parent, p ∈ ids s.live
  | .used r => r ∈ ids s.live
  | .closed r => r ∈ ids s.live ∧ ∀ x ∈ s.live, x.2 ≠ some r

/-- **Only what may happen happens**, from the first event on. -/
def Legal (events : List (Event ι)) : Prop := Meets next Allowed start events

/-- The registry after a sequence of events. -/
abbrev registry (events : List (Event ι)) : Registry ι := run next start events

/-! ## The invariant of legal sequences -/

/-- No resource is there twice, and every parent is open. -/
structure Forest (s : Registry ι) : Prop where
  distinct : (ids s.live ++ s.closed).Nodup
  grounded : Grounded s.live
  irreflexive : ∀ x ∈ s.live, x.2 ≠ some x.1

omit [DecidableEq ι] in
theorem forest_start : Forest (start : Registry ι) :=
  ⟨List.nodup_nil, by simp [Grounded, start], by simp [start]⟩

omit [DecidableEq ι] in
theorem mem_ids {F : List (ι × Option ι)} {r : ι} : r ∈ ids F ↔ ∃ p, (r, p) ∈ F := by
  simp [ids]

theorem mem_ids_filter {F : List (ι × Option ι)} {r q : ι} :
    q ∈ ids (F.filter (·.1 ≠ r)) ↔ q ∈ ids F ∧ q ≠ r := by
  rw [mem_ids, mem_ids]
  constructor
  · rintro ⟨p, hp⟩
    obtain ⟨hmem, hne⟩ := List.mem_filter.mp hp
    exact ⟨⟨p, hmem⟩, of_decide_eq_true hne⟩
  · rintro ⟨⟨p, hp⟩, hne⟩
    exact ⟨p, List.mem_filter.mpr ⟨hp, decide_eq_true hne⟩⟩

/-- **One event** that may happen keeps the resources a forest. -/
theorem Forest.next {s : Registry ι} (hs : Forest s) {e : Event ι} (he : Allowed s e) :
    Forest (next s e) := by
  cases e with
  | opened r parent =>
    obtain ⟨hlive, hclosed, hparent⟩ := he
    refine ⟨List.nodup_cons.mpr ⟨fun hr => ?_, hs.distinct⟩, fun x hx p hp => ?_, fun x hx => ?_⟩
    · rcases List.mem_append.mp hr with hr | hr
      · exact hlive hr
      · exact hclosed hr
    · rcases List.mem_cons.mp hx with rfl | hx
      · exact List.mem_cons_of_mem _ (hparent p hp)
      · exact List.mem_cons_of_mem _ (hs.grounded x hx p hp)
    · rcases List.mem_cons.mp hx with rfl | hx
      · exact fun hself => hlive (hparent r hself)
      · exact hs.irreflexive x hx
  | used r => exact hs
  | closed r =>
    obtain ⟨hlive, hchildless⟩ := he
    obtain ⟨hdistinct, hclosed, hdisjoint⟩ := List.nodup_append.mp hs.distinct
    refine ⟨List.nodup_append.mpr ⟨?_, List.nodup_cons.mpr ⟨?_, hclosed⟩, ?_⟩, fun x hx p hp => ?_,
      fun x hx => hs.irreflexive x (List.mem_filter.mp hx).1⟩
    · exact hdistinct.sublist (List.filter_sublist.map _)
    · intro hr
      exact hdisjoint r hlive r hr rfl
    · intro q hq q' hq' he
      obtain ⟨hmem, hne⟩ := mem_ids_filter.mp hq
      rcases List.mem_cons.mp hq' with rfl | hq'
      · exact hne he
      · exact hdisjoint q hmem q' hq' he
    -- what is closed has no children, so that no parent is lost
    · have hmem := (List.mem_filter.mp hx).1
      refine mem_ids_filter.mpr ⟨hs.grounded x hmem p hp, ?_⟩
      rintro rfl
      exact hchildless x hmem hp

theorem Legal.forest {events : List (Event ι)} (h : Legal events) : Forest (registry events) :=
  h.invariant (fun _ _ hs he => hs.next he) forest_start

/-! ## What a legal sequence is -/

/-- What is closed was closed by an event. -/
theorem mem_closed_iff {events : List (Event ι)} {s : Registry ι} {r : ι} :
    r ∈ (run next s events).closed ↔ r ∈ s.closed ∨ .closed r ∈ events := by
  induction events generalizing s with
  | nil => simp [run]
  | cons e events ih =>
    have hrun : run next s (e :: events) = run next (next s e) events := rfl
    rw [hrun, ih]
    cases e with
    | opened q parent => simp [next]
    | used q => simp [next]
    | closed q =>
      simp only [next, List.mem_cons, Event.closed.injEq]
      tauto

/-- What was opened is open or closed, with its parent. -/
theorem opened_mem {events : List (Event ι)} {s : Registry ι} {r : ι} {parent : Option ι}
    (h : .opened r parent ∈ events ∨ (r, parent) ∈ s.live ∨ r ∈ s.closed) :
    (r, parent) ∈ (run next s events).live ∨ r ∈ (run next s events).closed := by
  induction events generalizing s with
  | nil =>
    rcases h with h | h
    · cases h
    · exact h
  | cons e events ih =>
    refine ih ?_
    rcases h with h | h | h
    · rcases List.mem_cons.mp h with rfl | h
      · exact .inr (.inl List.mem_cons_self)
      · exact .inl h
    · refine .inr ?_
      cases e with
      | opened q parent' => exact .inl (List.mem_cons_of_mem _ h)
      | used q => exact .inl h
      | closed q =>
        by_cases hq : r = q
        · exact .inr (hq ▸ List.mem_cons_self)
        · exact .inl (List.mem_filter.mpr ⟨h, decide_eq_true hq⟩)
    · refine .inr (.inr ?_)
      cases e with
      | opened q parent' => exact h
      | used q => exact h
      | closed q => exact List.mem_cons_of_mem _ h

/-- What is open was opened by an event. -/
theorem live_opened {events : List (Event ι)} {r : ι} {parent : Option ι}
    (h : (r, parent) ∈ (registry events).live) : .opened r parent ∈ events := by
  have hgeneral : ∀ s : Registry ι, (r, parent) ∈ (run next s events).live →
      (r, parent) ∈ s.live ∨ .opened r parent ∈ events := by
    clear h
    induction events with
    | nil => exact fun s h => .inl h
    | cons e events ih =>
      intro s h
      rcases ih (next s e) h with hlive | hmem
      · cases e with
        | opened q parent' =>
          rcases List.mem_cons.mp hlive with heq | hlive
          · obtain ⟨rfl, rfl⟩ := Prod.mk.inj heq
            exact .inr List.mem_cons_self
          · exact .inl hlive
        | used q => exact .inl hlive
        | closed q => exact .inl (List.mem_filter.mp hlive).1
      · exact .inr (List.mem_cons_of_mem _ hmem)
  rcases hgeneral start h with hnone | hmem
  · cases hnone
  · exact hmem

/-- What is closed was opened before, on some parent or on none. -/
theorem Legal.opened_of_closed {events : List (Event ι)} (h : Legal events) {r : ι}
    (hr : .closed r ∈ events) : ∃ parent, .opened r parent ∈ events := by
  obtain ⟨before, after, rfl⟩ := List.append_of_mem hr
  obtain ⟨-, ⟨hlive, -⟩, -⟩ := meets_append.mp h
  obtain ⟨parent, hmem⟩ := mem_ids.mp hlive
  exact ⟨parent, List.mem_append_left _ (live_opened hmem)⟩

/-- What is used was opened before, on some parent or on none. -/
theorem Legal.opened_of_used {events : List (Event ι)} (h : Legal events) {r : ι}
    (hr : .used r ∈ events) : ∃ parent, .opened r parent ∈ events := by
  obtain ⟨before, after, rfl⟩ := List.append_of_mem hr
  obtain ⟨-, hlive, -⟩ := meets_append.mp h
  obtain ⟨parent, hmem⟩ := mem_ids.mp hlive
  exact ⟨parent, List.mem_append_left _ (live_opened hmem)⟩

/-- **Every resource that was opened is open, or has been closed.** -/
theorem opened_cases {events : List (Event ι)} {r : ι} {parent : Option ι}
    (hr : .opened r parent ∈ events) :
    (r, parent) ∈ (registry events).live ∨ .closed r ∈ events := by
  refine (opened_mem (s := start) (.inl hr)).imp_right fun hclosed => ?_
  rcases mem_closed_iff.mp hclosed with hnone | hmem
  · cases hnone
  · exact hmem

/-- **Children are closed first**: when a resource is closed, what was opened on it has been. -/
theorem Legal.children_first {events events' : List (Event ι)} {p c : ι}
    (h : Legal (events ++ .closed p :: events')) (hc : .opened c (some p) ∈ events) :
    .closed c ∈ events := by
  obtain ⟨-, ⟨-, hchildless⟩, -⟩ := meets_append.mp h
  rcases opened_cases hc with hlive | hclosed
  · exact absurd rfl (hchildless _ hlive)
  · exact hclosed

/-- **Nothing happens to a resource that has been closed.** -/
theorem Legal.not_after {events events' : List (Event ι)} {r : ι}
    (h : Legal (events ++ .closed r :: events')) :
    .used r ∉ events' ∧ .closed r ∉ events' ∧ ∀ c parent, .opened c parent ∈ events' →
      c ≠ r ∧ parent ≠ some r := by
  have hgone : ∀ e ∈ events', ∃ s, Forest s ∧ r ∈ s.closed ∧ Allowed s e := by
    intro e he
    obtain ⟨before, after, rfl⟩ := List.append_of_mem he
    have hsplit : events ++ .closed r :: (before ++ e :: after) =
        (events ++ .closed r :: before) ++ e :: after := by simp
    rw [hsplit] at h
    obtain ⟨hbefore, hallowed, -⟩ := meets_append.mp h
    exact ⟨_, Legal.forest hbefore, mem_closed_iff.mpr (.inr (by simp)), hallowed⟩
  have hnot : ∀ s : Registry ι, Forest s → r ∈ s.closed → r ∉ ids s.live := by
    intro s hs hclosed hlive
    exact (List.nodup_append.mp hs.distinct).2.2 r hlive r hclosed rfl
  refine ⟨fun hused => ?_, fun hclosed => ?_, fun c parent hopened => ?_⟩
  · obtain ⟨s, hs, hr, hallowed⟩ := hgone _ hused
    exact hnot s hs hr hallowed
  · obtain ⟨s, hs, hr, hallowed⟩ := hgone _ hclosed
    exact hnot s hs hr hallowed.1
  · obtain ⟨s, hs, hr, -, hnew, hparent⟩ := hgone _ hopened
    refine ⟨?_, ?_⟩
    · rintro rfl
      exact hnew hr
    · rintro rfl
      exact hnot s hs hr (hparent r rfl)

/-- **A resource is closed once**: it was not closed before. -/
theorem Legal.not_before {events events' : List (Event ι)} {r : ι}
    (h : Legal (events ++ .closed r :: events')) : .closed r ∉ events := by
  intro hr
  obtain ⟨before, after, rfl⟩ := List.append_of_mem hr
  have hsplit : before ++ .closed r :: after ++ .closed r :: events' =
      before ++ .closed r :: (after ++ .closed r :: events') := by simp
  rw [hsplit] at h
  exact h.not_after.2.1 (List.mem_append_right _ List.mem_cons_self)

/-! ## Owning resources -/

/-- **The events are legal, and these resources are open after them.** -/
structure Owns (events : List (Event ι)) (F : List (ι × Option ι)) : Prop where
  legal : Legal events
  live : (registry events).live.Perm F

variable {events : List (Event ι)} {F G : List (ι × Option ι)} {r : ι} {parent : Option ι}

theorem owns_nil : Owns ([] : List (Event ι)) [] := ⟨trivial, .nil⟩

theorem Owns.perm (h : Owns events F) (hFG : F.Perm G) : Owns events G :=
  ⟨h.legal, h.live.trans hFG⟩

theorem Owns.mem_ids_iff (h : Owns events F) {q : ι} : q ∈ ids (registry events).live ↔ q ∈ ids F :=
  (h.live.map _).mem_iff

theorem Owns.nodup (h : Owns events F) : (ids F).Nodup :=
  (h.live.map _).nodup_iff.mp (List.nodup_append.mp h.legal.forest.distinct).1

/-- **Using** something that is open leaves the same resources open. -/
theorem Owns.use (h : Owns events F) (hr : r ∈ ids F) : Owns (events ++ [.used r]) F := by
  refine ⟨meets_append.mpr ⟨h.legal, h.mem_ids_iff.mpr hr, trivial⟩, ?_⟩
  rw [registry, run_append]
  exact h.live

theorem Owns.uses (h : Owns events F) {used : List ι} (hused : ∀ u ∈ used, u ∈ ids F) :
    Owns (events ++ used.map .used) F := by
  induction used generalizing events with
  | nil => simpa using h
  | cons u used ih =>
    have hsplit : events ++ (u :: used).map .used = (events ++ [.used u]) ++ used.map .used := by
      simp
    rw [hsplit]
    exact ih (h.use (hused u List.mem_cons_self)) fun v hv => hused v (List.mem_cons_of_mem u hv)

/-- **Opening** something new on what is open adds it to the open resources. -/
theorem Owns.opens (h : Owns events F) (hnew : ∀ parent, .opened r parent ∉ events)
    (hparent : ∀ p ∈ parent, p ∈ ids F) :
    Owns (events ++ [.opened r parent]) ((r, parent) :: F) := by
  refine ⟨meets_append.mpr ⟨h.legal, ⟨?_, ?_, ?_⟩, trivial⟩, ?_⟩
  · intro hlive
    obtain ⟨p, hp⟩ := mem_ids.mp hlive
    exact hnew p (live_opened hp)
  · intro hr
    rcases mem_closed_iff.mp hr with hnone | hmem
    · cases hnone
    · obtain ⟨p, hp⟩ := h.legal.opened_of_closed hmem
      exact hnew p hp
  · exact fun p hp => h.mem_ids_iff.mpr (hparent p hp)
  · rw [registry, run_append]
    exact h.live.cons _

/-- **Closing** what is no parent of anything in the frame. -/
theorem Owns.closes (h : Owns events ((r, parent) :: F)) (hF : Grounded F) :
    Owns (events ++ [.closed r]) F := by
  have hnodup : r ∉ ids F := (List.nodup_cons.mp h.nodup).1
  have hself : parent ≠ some r :=
    h.legal.forest.irreflexive _ (h.live.mem_iff.mpr List.mem_cons_self)
  refine ⟨meets_append.mpr ⟨h.legal, ⟨h.mem_ids_iff.mpr List.mem_cons_self, ?_⟩, trivial⟩, ?_⟩
  · intro x hx hp
    rcases List.mem_cons.mp (h.live.mem_iff.mp hx) with rfl | hx
    · exact hself hp
    · exact hnodup (hF x hx r hp)
  · rw [registry, run_append]
    show ((registry events).live.filter (·.1 ≠ r)).Perm F
    refine (h.live.filter _).trans ?_
    rw [List.filter_cons_of_neg (by simp), List.filter_eq_self.mpr ?_]
    intro x hx
    refine decide_eq_true ?_
    rintro rfl
    exact hnodup (List.mem_map_of_mem hx)

end ResourceTree
