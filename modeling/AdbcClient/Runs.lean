import Mathlib.Init

/-! # Transition systems and their runs

Two ways to say what holds "in every run".  A `TransitionSystem` has a step
relation, for components whose steps are scheduled by somebody else: an
invariant is proved once for the initial states and once for a step
(`Reachable.invariant`), and a run all of whose steps meet a condition is a run
of the system restricted to those steps (`restrict`).

A component that is a function of the operations called on it is folded over a
list of operations instead.  `Visits P next s ops` says that `P` holds in every
state the run from `s` goes through, `Meets C next s ops` that every operation is
called in a state in which `C` allows it.  `visits_iff_meets` turns a fact about
one operation, "it leaves a good state good exactly if `C` allows it", into the
same fact about whole runs.  If the operations answer, `outputs` is what a run of them
answers, and `outputs_eq` the rule by which two components are shown to answer alike.
-/
namespace Runs

/-- States of type `σ`, moved by steps with labels of type `α`. -/
structure TransitionSystem (σ α : Type) where
  initial : σ → Prop
  step : σ → α → σ → Prop

namespace TransitionSystem
variable {σ α : Type} (T : TransitionSystem σ α)

/-- The states of the runs of `T`. -/
inductive Reachable : σ → Prop
  | initial {s : σ} : T.initial s → Reachable s
  | step {s s' : σ} {a : α} : Reachable s → T.step s a s' → Reachable s'

variable {T}

/-- **The invariant rule.**  The step case may use that the state before the
step is reachable, so an invariant can rest on one proved earlier. -/
theorem Reachable.invariant {I : σ → Prop} {s : σ} (hs : T.Reachable s)
    (initial : ∀ s, T.initial s → I s)
    (step : ∀ s a s', T.Reachable s → I s → T.step s a s' → I s') : I s := by
  induction hs with
  | initial h => exact initial _ h
  | step hr hstep ih => exact step _ _ _ hr ih hstep

variable (T)

/-- The runs of `T` that start in `s`. -/
def startingAt (s : σ) : TransitionSystem σ α where
  initial := (· = s)
  step := T.step

variable {T}

/-- **From then on.**  What every step keeps holds in all that follows a state in
which it holds. -/
theorem Reachable.after {Q : σ → Prop} {s s' : σ} (hs : T.Reachable s) (hQ : Q s)
    (step : ∀ s a s', T.Reachable s → Q s → T.step s a s' → Q s')
    (h : (T.startingAt s).Reachable s') : T.Reachable s' ∧ Q s' := by
  induction h with
  | initial he =>
    obtain rfl := he
    exact ⟨hs, hQ⟩
  | step _ hstep ih => exact ⟨.step ih.1 hstep, step _ _ _ ih.1 ih.2 hstep⟩

variable (T)

/-- The runs of `T` whose steps all meet `ok`. -/
def restrict (ok : σ → α → Prop) : TransitionSystem σ α where
  initial := T.initial
  step s a s' := ok s a ∧ T.step s a s'

variable {T}

theorem Reachable.step_restrict {ok : σ → α → Prop} {s s' : σ} {a : α}
    (hs : (T.restrict ok).Reachable s) (hstep : T.step s a s') (hok : ok s a) :
    (T.restrict ok).Reachable s' := .step hs ⟨hok, hstep⟩

theorem Reachable.of_restrict {ok : σ → α → Prop} {s : σ}
    (hs : (T.restrict ok).Reachable s) : T.Reachable s := by
  induction hs with
  | initial h => exact .initial h
  | step _ hstep ih => exact .step ih hstep.2

end TransitionSystem

section Operations
variable {σ α : Type} (next : σ → α → σ)

/-- The state after a sequence of operations. -/
def run (s : σ) (ops : List α) : σ := ops.foldl next s

/-- What every operation of a run keeps holds after it. -/
theorem run_invariant {I : σ → Prop} {ops : List α}
    (step : ∀ s, ∀ a ∈ ops, I s → I (next s a)) {s : σ} (hs : I s) : I (run next s ops) := by
  induction ops generalizing s with
  | nil => exact hs
  | cons a ops ih =>
    exact ih (fun s b hb => step s b (List.mem_cons_of_mem a hb)) (step s a List.mem_cons_self hs)

/-- `P` holds in every state of the run, the first and the last included. -/
def Visits (P : σ → Prop) : σ → List α → Prop
  | s, [] => P s
  | s, a :: ops => P s ∧ Visits P (next s a) ops

/-- Every operation of the run is called in a state in which `C` allows it. -/
def Meets (C : σ → α → Prop) : σ → List α → Prop
  | _, [] => True
  | s, a :: ops => C s a ∧ Meets C (next s a) ops

variable {next}

instance decidableMeets {C : σ → α → Prop} [∀ s a, Decidable (C s a)] :
    (s : σ) → (ops : List α) → Decidable (Meets next C s ops)
  | _, [] => .isTrue trivial
  | s, a :: ops =>
    have : Decidable (Meets next C (next s a) ops) := decidableMeets _ _
    inferInstanceAs (Decidable (C s a ∧ Meets next C (next s a) ops))

/-- What every admitted operation keeps holds after a run of them. -/
theorem Meets.invariant {I : σ → Prop} {A : σ → α → Prop}
    (keeps : ∀ s a, I s → A s a → I (next s a)) {s : σ} (hI : I s) {ops : List α}
    (hA : Meets next A s ops) : I (run next s ops) := by
  induction ops generalizing s with
  | nil => exact hI
  | cons a ops ih => exact ih (keeps s a hI hA.1) hA.2

/-- **One operation decides the run.**  If an operation that `A` admits and `C` allows
keeps the invariant `I`, and one that `A` admits leaves a state in which `P` holds in one
in which `P` holds exactly if `C` allows it, then `P` holds throughout a run exactly if `C`
allows every operation of it. -/
theorem visits_iff_meets_while {I P : σ → Prop} {A C : σ → α → Prop}
    (keeps : ∀ s a, I s → A s a → C s a → I (next s a))
    (one : ∀ s a, I s → A s a → P s → (P (next s a) ↔ C s a))
    {s : σ} (hI : I s) (hP : P s) {ops : List α} (hA : Meets next A s ops) :
    Visits next P s ops ↔ Meets next C s ops := by
  induction ops generalizing s with
  | nil => exact iff_of_true hP trivial
  | cons a ops ih =>
    obtain ⟨ha, hops⟩ := hA
    have hone := one s a hI ha hP
    constructor
    · rintro ⟨-, hv⟩
      -- the state after `a` is the first one of the rest of the run
      have hPa : P (next s a) := by
        cases ops with
        | nil => exact hv
        | cons b ops => exact hv.1
      have hC := hone.mp hPa
      exact ⟨hC, (ih (keeps s a hI ha hC) hPa hops).mp hv⟩
    · rintro ⟨hC, hm⟩
      exact ⟨hP, (ih (keeps s a hI ha hC) (hone.mpr hC) hops).mpr hm⟩

/-- The same with an invariant that every admitted operation keeps. -/
theorem visits_iff_meets {I P : σ → Prop} {A C : σ → α → Prop}
    (keeps : ∀ s a, I s → A s a → I (next s a))
    (one : ∀ s a, I s → A s a → P s → (P (next s a) ↔ C s a))
    {s : σ} (hI : I s) (hP : P s) {ops : List α} (hA : Meets next A s ops) :
    Visits next P s ops ↔ Meets next C s ops :=
  visits_iff_meets_while (fun s a hI ha _ => keeps s a hI ha) one hI hP hA

/-- A run goes on where the last one has ended. -/
theorem run_append (s : σ) (ops ops' : List α) :
    run next s (ops ++ ops') = run next (run next s ops) ops' := List.foldl_append

theorem meets_append {C : σ → α → Prop} {s : σ} {ops ops' : List α} :
    Meets next C s (ops ++ ops') ↔ Meets next C s ops ∧ Meets next C (run next s ops) ops' := by
  induction ops generalizing s with
  | nil => exact ⟨fun h => ⟨trivial, h⟩, fun h => h.2⟩
  | cons a ops ih =>
    show C s a ∧ Meets next C (next s a) (ops ++ ops') ↔ _
    rw [ih]
    exact and_assoc.symm

/-- A condition that admits everything is met by every run. -/
theorem meets_true (s : σ) (ops : List α) : Meets next (fun _ _ => True) s ops := by
  induction ops generalizing s with
  | nil => trivial
  | cons a ops ih => exact ⟨trivial, ih (next s a)⟩

end Operations

section Outputs
variable {σ τ α β : Type}

/-- What a sequence of operations answers, with the state handed on. -/
def outputs (step : σ → α → β × σ) : σ → List α → List β
  | _, [] => []
  | s, a :: ops => (step s a).1 :: outputs step (step s a).2 ops

/-- **Simulation.**  States related by an `R` that every operation keeps, with equal
answers, cannot be told apart. -/
theorem outputs_eq {R : σ → τ → Prop} {step : σ → α → β × σ} {step' : τ → α → β × τ}
    (one : ∀ s t a, R s t → (step s a).1 = (step' t a).1 ∧ R (step s a).2 (step' t a).2)
    {s : σ} {t : τ} (h : R s t) (ops : List α) : outputs step s ops = outputs step' t ops := by
  induction ops generalizing s t with
  | nil => rfl
  | cons a ops ih =>
    obtain ⟨hanswer, hnext⟩ := one s t a h
    rw [outputs, outputs, hanswer, ih hnext]

end Outputs

end Runs
