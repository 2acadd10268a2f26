import Mathlib.Algebra.GroupWithZero.Nat
import Mathlib.Data.List.Perm.Subperm
import Mathlib.Data.List.GetD
import Mathlib.Data.List.Nodup
import Mathlib.Data.List.Range
import Mathlib.Logic.Function.Basic

/-!
# Sharing out work

Parts of known sizes are shared out among workers.  A worker takes the next part, works
its units off from the first one on, possibly in several rounds, and takes another one.
The `Ledger` has how many parts are taken, who has which, and a log of the units that are
done.

`Sound` is what such a sharing keeps: of every part, the units done are the first ones,
in order, and all of them if the part was taken and nobody has it any more.  So when all
parts are taken and nobody has one, every unit is in the log once (`Sound.log_perm`).
-/
namespace WorkSharing

/-- What has been shared out, and what has been done.  A unit is the number of a part and
a place in it. -/
structure Ledger (W : Type) where
  taken : Nat
  part : W → Option Nat
  log : List (Nat × Nat)

/-- The units of work of the parts: for each part its number, and the numbers of its units. -/
def units (sizes : List Nat) : List (Nat × Nat) :=
  (List.range sizes.length).flatMap fun b => (List.range (sizes.getD b 0)).map (b, ·)

theorem mem_units {sizes : List Nat} {b i : Nat} :
    (b, i) ∈ units sizes ↔ i < sizes.getD b 0 := by
  simp only [units, List.mem_flatMap, List.mem_map, List.mem_range, Prod.mk.injEq]
  constructor
  · rintro ⟨b', -, i', hi, rfl, rfl⟩
    exact hi
  · intro hi
    refine ⟨b, ?_, i, hi, rfl, rfl⟩
    by_contra hb
    rw [List.getD_eq_default _ _ (by omega)] at hi
    omega

theorem units_nodup (sizes : List Nat) : (units sizes).Nodup := by
  rw [units, List.nodup_flatMap]
  constructor
  · intro b _
    exact List.nodup_range.map fun i i' h => congrArg Prod.snd h
  · refine List.nodup_range.imp fun {b b'} hne => List.disjoint_left.mpr ?_
    rintro u hu hu'
    obtain ⟨i, -, rfl⟩ := List.mem_map.mp hu
    obtain ⟨i', -, he⟩ := List.mem_map.mp hu'
    exact hne (congrArg Prod.fst he).symm

theorem count_units (sizes : List Nat) (b i : Nat) :
    (units sizes).count (b, i) = (List.range (sizes.getD b 0)).count i := by
  rw [(units_nodup sizes).count, List.nodup_range.count]
  simp only [mem_units, List.mem_range]

theorem length_units (sizes : List Nat) : (units sizes).length = sizes.sum := by
  have hsizes : (List.range sizes.length).map (fun b => sizes.getD b 0) = sizes := by
    apply List.ext_getElem
    · simp
    · intro b _ hb
      simp [hb]
  simp only [units, List.length_flatMap, List.length_map, List.length_range, hsizes]

namespace Ledger
variable {W : Type}

/-- The ledger before the work begins, in which no part has been taken and no unit has been done. -/
def start : Ledger W := ⟨0, fun _ => none, []⟩

/-- The units of a part that are done, in the order in which they were. -/
def done (L : Ledger W) (b : Nat) : List Nat := (L.log.filter fun u => u.1 == b).map Prod.snd

theorem count_done (L : Ledger W) (b i : Nat) : L.log.count (b, i) = (L.done b).count i := by
  rw [done]
  induction L.log with
  | nil => rfl
  | cons u log ih =>
    obtain ⟨b', i'⟩ := u
    by_cases hb : b' = b
    · rw [List.filter_cons_of_pos (by simp [hb]), List.map_cons, List.count_cons, List.count_cons,
        ih]
      simp [hb]
    · rw [List.filter_cons_of_neg (by simp [hb]), List.count_cons, ih]
      simp [hb]

variable [DecidableEq W]

/-- The ledger after the next parts have been passed over, as parts without units are. -/
def skip (L : Ledger W) (n : Nat) : Ledger W := { L with taken := L.taken + n }

/-- The ledger after a worker has taken the next part, of which no unit has been done yet. -/
def take (L : Ledger W) (w : W) : Ledger W :=
  { L with taken := L.taken + 1, part := Function.update L.part w (some L.taken) }

/-- A worker has no part any more. -/
def drop (L : Ledger W) (w : W) : Ledger W :=
  { L with part := Function.update L.part w none }

@[simp] theorem part_take_self (L : Ledger W) (w : W) : (L.take w).part w = some L.taken :=
  Function.update_self ..

theorem part_take_ne (L : Ledger W) {w w' : W} (hne : w' ≠ w) :
    (L.take w).part w' = L.part w' := Function.update_of_ne hne ..

@[simp] theorem part_drop_self (L : Ledger W) (w : W) : (L.drop w).part w = none :=
  Function.update_self ..

theorem part_drop_ne (L : Ledger W) {w w' : W} (hne : w' ≠ w) :
    (L.drop w).part w' = L.part w' := Function.update_of_ne hne ..

/-- The ledger after some more units of a part have been done, from the first one that was left. -/
def work (L : Ledger W) (b start n : Nat) : Ledger W :=
  { L with log := L.log ++ (List.range' start n).map (b, ·) }

omit [DecidableEq W] in
theorem done_work_self (L : Ledger W) (b start n : Nat) :
    (L.work b start n).done b = L.done b ++ List.range' start n := by
  simp [work, done, List.filter_map, Function.comp_def]

omit [DecidableEq W] in
theorem done_work_ne (L : Ledger W) {b b' : Nat} (hne : b' ≠ b) (start n : Nat) :
    (L.work b start n).done b' = L.done b' := by
  have hne' : (b == b') = false := by simpa using hne.symm
  simp [work, done, List.filter_map, Function.comp_def, hne']

end Ledger

/-- **What sharing keeps**: a part has at most one worker, and the log has the first units of each
part that was taken, all of them if no worker has the part any more. -/
structure Sound {W : Type} (sizes : List Nat) (L : Ledger W) : Prop where
  bounded : L.taken ≤ sizes.length
  /-- Nothing is done of a part that is not taken. -/
  fresh : ∀ b, L.taken ≤ b → L.done b = []
  /-- The first units are done of a part that somebody has. -/
  held : ∀ w b, L.part w = some b → b < L.taken ∧ ∃ k ≤ sizes.getD b 0, L.done b = List.range k
  unique : ∀ w w' b, L.part w = some b → L.part w' = some b → w = w'
  /-- All units are done of a part that nobody has any more. -/
  finished : ∀ b < L.taken, (∀ w, L.part w ≠ some b) → L.done b = List.range (sizes.getD b 0)

namespace Sound
variable {W : Type} {sizes : List Nat} {L : Ledger W}

theorem start (sizes : List Nat) : Sound sizes (.start : Ledger W) where
  bounded := Nat.zero_le _
  fresh _ _ := rfl
  held _ _ := nofun
  unique _ _ _ := nofun
  finished _ hb := absurd hb (Nat.not_lt_zero _)

/-- The units of a part that are done are the first ones. -/
theorem done_eq (h : Sound sizes L) (b : Nat) :
    ∃ k ≤ sizes.getD b 0, L.done b = List.range k := by
  by_cases hb : b < L.taken
  · by_cases hheld : ∃ w, L.part w = some b
    · obtain ⟨w, hw⟩ := hheld
      exact (h.held w b hw).2
    · exact ⟨_, Nat.le_refl _, h.finished b hb (not_exists.mp hheld)⟩
  · exact ⟨0, Nat.zero_le _, h.fresh b (Nat.le_of_not_lt hb)⟩

theorem count_le (h : Sound sizes L) (u : Nat × Nat) :
    L.log.count u ≤ (units sizes).count u := by
  obtain ⟨b, i⟩ := u
  obtain ⟨k, hk, hdone⟩ := h.done_eq b
  rw [L.count_done, hdone, count_units]
  exact (List.range_sublist.mpr hk).count_le i

/-- No more is done than there is. -/
theorem length_log_le (h : Sound sizes L) : L.log.length ≤ sizes.sum := by
  rw [← length_units]
  exact (List.subperm_ext_iff.mpr fun u _ => h.count_le u).length_le

/-- When all parts are taken and nobody has one, all of each is done. -/
theorem all_done (h : Sound sizes L) (htaken : L.taken = sizes.length)
    (hfree : ∀ w, L.part w = none) (b : Nat) : L.done b = List.range (sizes.getD b 0) := by
  by_cases hb : b < L.taken
  · refine h.finished b hb fun w => ?_
    rw [hfree w]
    exact nofun
  · rw [h.fresh b (Nat.le_of_not_lt hb), List.getD_eq_default _ _ (by omega)]
    rfl

/-- **Then every unit is done once**: if all parts are taken and finished, the log is a permutation
of the units of all parts. -/
theorem log_perm (h : Sound sizes L) (htaken : L.taken = sizes.length)
    (hfree : ∀ w, L.part w = none) : L.log.Perm (units sizes) := by
  rw [List.perm_iff_count]
  rintro ⟨b, i⟩
  rw [L.count_done, h.all_done htaken hfree, count_units]

/-! ## What the workers may do -/

/-- Parts without units may be passed over. -/
theorem skip (h : Sound sizes L) {n : Nat} (hn : L.taken + n ≤ sizes.length)
    (hempty : ∀ i < n, sizes.getD (L.taken + i) 0 = 0) : Sound sizes (L.skip n) where
  bounded := hn
  fresh b hb := h.fresh b (Nat.le_trans (Nat.le_add_right _ _) hb)
  held w b hw := by
    obtain ⟨hlt, hdone⟩ := h.held w b hw
    exact ⟨Nat.lt_of_lt_of_le hlt (Nat.le_add_right _ _), hdone⟩
  unique := h.unique
  finished b hb hheld := by
    by_cases hlt : b < L.taken
    · exact h.finished b hlt hheld
    · have hb' : b < L.taken + n := hb
      have hzero := hempty (b - L.taken) (by omega)
      rw [Nat.add_sub_cancel' (Nat.le_of_not_lt hlt)] at hzero
      rw [hzero]
      exact h.fresh b (Nat.le_of_not_lt hlt)

/-- Units of the part that a worker has may be done, from the first one on that is not. -/
theorem work (h : Sound sizes L) {w : W} {b k n : Nat} (hw : L.part w = some b)
    (hdone : L.done b = List.range k) (hn : k + n ≤ sizes.getD b 0) :
    Sound sizes (L.work b k n) ∧ (L.work b k n).done b = List.range (k + n) := by
  have hself : (L.work b k n).done b = List.range (k + n) := by
    have happend : List.range' 0 k ++ List.range' (0 + k) n = List.range' 0 (k + n) :=
      List.range'_append_1
    rw [L.done_work_self, hdone, List.range_eq_range', List.range_eq_range', ← happend,
      Nat.zero_add]
  have hlt := (h.held w b hw).1
  refine ⟨⟨h.bounded, ?_, ?_, h.unique, ?_⟩, hself⟩
  · intro b' hb'
    have hne : b' ≠ b := fun he => absurd (he ▸ hb' : L.taken ≤ b) (Nat.not_le_of_lt hlt)
    rw [L.done_work_ne hne]
    exact h.fresh b' hb'
  · intro w' b' hw'
    obtain ⟨hlt', hdone'⟩ := h.held w' b' hw'
    refine ⟨hlt', ?_⟩
    by_cases he : b' = b
    · exact ⟨k + n, he ▸ hn, he ▸ hself⟩
    · rw [L.done_work_ne he]
      exact hdone'
  · intro b' hb' hheld
    have hne : b' ≠ b := fun he => hheld w (he ▸ hw)
    rw [L.done_work_ne hne]
    exact h.finished b' hb' hheld

variable [DecidableEq W]

/-- A worker may let go of a part that is done. -/
theorem drop (h : Sound sizes L) {w : W}
    (hdone : ∀ b, L.part w = some b → L.done b = List.range (sizes.getD b 0)) :
    Sound sizes (L.drop w) ∧ (L.drop w).part w = none := by
  have hpart : ∀ w' b, (L.drop w).part w' = some b → w' ≠ w ∧ L.part w' = some b := by
    intro w' b hb
    by_cases he : w' = w
    · rw [he, L.part_drop_self] at hb
      cases hb
    · rw [L.part_drop_ne he] at hb
      exact ⟨he, hb⟩
  refine ⟨⟨h.bounded, h.fresh, ?_, ?_, ?_⟩, L.part_drop_self w⟩
  · exact fun w' b hw' => h.held w' b (hpart w' b hw').2
  · exact fun w' w'' b hw' hw'' => h.unique w' w'' b (hpart w' b hw').2 (hpart w'' b hw'').2
  · intro b hb hheld
    by_cases hw : L.part w = some b
    · exact hdone b hw
    · refine h.finished b hb fun w' hw' => ?_
      have hne : w' ≠ w := fun he => hw (he ▸ hw')
      exact hheld w' ((L.part_drop_ne hne).trans hw')

/-- A worker without a part may take the next one. -/
theorem take (h : Sound sizes L) {w : W} (hfree : L.part w = none)
    (hmore : L.taken < sizes.length) :
    Sound sizes (L.take w) ∧ (L.take w).done L.taken = [] := by
  have hpart : ∀ w' b, (L.take w).part w' = some b →
      (w' = w ∧ b = L.taken) ∨ (w' ≠ w ∧ L.part w' = some b) := by
    intro w' b hb
    by_cases he : w' = w
    · rw [he, L.part_take_self] at hb
      exact .inl ⟨he, (Option.some.inj hb).symm⟩
    · rw [L.part_take_ne he] at hb
      exact .inr ⟨he, hb⟩
  have hnew : L.done L.taken = [] := h.fresh _ (Nat.le_refl _)
  refine ⟨⟨hmore, ?_, ?_, ?_, ?_⟩, hnew⟩
  · exact fun b hb => h.fresh b (Nat.le_trans (Nat.le_succ _) hb)
  · intro w' b hw'
    rcases hpart w' b hw' with ⟨-, rfl⟩ | ⟨-, hold⟩
    · exact ⟨Nat.lt_succ_self _, 0, Nat.zero_le _, hnew⟩
    · obtain ⟨hlt, hdone⟩ := h.held w' b hold
      exact ⟨Nat.lt_succ_of_lt hlt, hdone⟩
  · intro w' w'' b hw' hw''
    rcases hpart w' b hw' with ⟨rfl, rfl⟩ | ⟨-, hold⟩
    · rcases hpart w'' _ hw'' with ⟨rfl, -⟩ | ⟨-, hold'⟩
      · rfl
      · exact absurd (h.held w'' _ hold').1 (Nat.lt_irrefl _)
    · rcases hpart w'' b hw'' with ⟨-, rfl⟩ | ⟨-, hold'⟩
      · exact absurd (h.held w' _ hold).1 (Nat.lt_irrefl _)
      · exact h.unique w' w'' b hold hold'
  · intro b hb hheld
    have hold : ∀ w', L.part w' ≠ some b := by
      intro w' hw'
      have hne : w' ≠ w := by
        rintro rfl
        rw [hfree] at hw'
        cases hw'
      exact hheld w' ((L.part_take_ne hne).trans hw')
    have hne : b ≠ L.taken := by
      rintro rfl
      exact hheld w (L.part_take_self w)
    exact h.finished b (Nat.lt_of_le_of_ne (Nat.le_of_lt_succ hb) hne) hold

end Sound

end WorkSharing
