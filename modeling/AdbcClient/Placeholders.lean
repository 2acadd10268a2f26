import Mathlib.Data.List.TakeWhile

/-!
# Texts with placeholders

A placeholder is a text between two doubled characters, in which neither of them occurs:
`{{name}}` for an opening and a closing brace.  `find` looks for the leftmost one from left to
right.  `find_eq_some_iff` says that it finds the only placeholder behind a text that is `Free`
of them, and `find_eq_none_iff` that a text in which it finds none is free.
-/
namespace Placeholders

variable (o c : Char)

/-- The character may stand in a placeholder. -/
def plain (x : Char) : Bool := x != o && x != c

/-- A placeholder with its delimiters: the body between two of each. -/
def wrapped (body : List Char) : List Char := o :: o :: (body ++ [c, c])

/-- Read the rest of a placeholder: what is in it, and what follows. -/
def close (text : List Char) : Option (List Char × List Char) :=
  match text.dropWhile (plain o c) with
  | x :: y :: rest => if x = c ∧ y = c then some (text.takeWhile (plain o c), rest) else none
  | _ => none

/-- Read a placeholder from the front of a text: its body, and the text behind it. -/
def placeholderAt : List Char → Option (List Char × List Char)
  | x :: y :: rest => if x = o ∧ y = o then close o c rest else none
  | _ => none

/-- The leftmost placeholder: what is before it, in it and after it. -/
def find : List Char → Option (List Char × List Char × List Char)
  | [] => none
  | x :: text =>
    match placeholderAt o c (x :: text) with
    | some (body, after) => some ([], body, after)
    | none =>
      match find text with
      | none => none
      | some (before, body, after) => some (x :: before, body, after)

/-- There is no placeholder in the text. -/
def Free (text : List Char) : Prop :=
  ∀ before body after, text = before ++ (wrapped o c body ++ after) →
    ¬ ∀ x ∈ body, plain o c x = true

variable {o c}

theorem not_plain_open : plain o c o = false := by simp [plain]

/-- **What is read as the rest of a placeholder.** -/
theorem close_eq_some_iff {text body after : List Char} :
    close o c text = some (body, after) ↔
      text = body ++ c :: c :: after ∧ ∀ x ∈ body, plain o c x = true := by
  constructor
  · intro h
    have hsplit : text.takeWhile (plain o c) ++ text.dropWhile (plain o c) = text :=
      List.takeWhile_append_dropWhile
    rw [close] at h
    split at h
    · rename_i x y rest hrest
      split at h
      · rename_i hclosing
        obtain ⟨rfl, rfl⟩ := hclosing
        obtain ⟨rfl, rfl⟩ := Prod.mk.inj (Option.some.inj h)
        rw [hrest] at hsplit
        exact ⟨hsplit.symm, fun x hx => List.mem_takeWhile_imp hx⟩
      · cases h
    · cases h
  · rintro ⟨rfl, hbody⟩
    have htake : (body ++ c :: c :: after).takeWhile (plain o c) = body := by
      rw [List.takeWhile_append_of_pos hbody, List.takeWhile_cons_of_neg (by simp [plain]),
        List.append_nil]
    have hdrop : (body ++ c :: c :: after).dropWhile (plain o c) = c :: c :: after := by
      rw [List.dropWhile_append_of_pos hbody, List.dropWhile_cons_of_neg (by simp [plain])]
    rw [close, hdrop, htake]
    simp

/-- **What is read as a placeholder**: a body without delimiters, between the delimiters. -/
theorem placeholderAt_eq_some_iff {text body after : List Char} :
    placeholderAt o c text = some (body, after) ↔
      text = wrapped o c body ++ after ∧ ∀ x ∈ body, plain o c x = true := by
  constructor
  · intro h
    rw [placeholderAt.eq_def] at h
    split at h
    · rename_i x y rest
      split at h
      · rename_i hopening
        obtain ⟨rfl, rfl⟩ := hopening
        obtain ⟨rfl, hbody⟩ := close_eq_some_iff.mp h
        exact ⟨by simp [wrapped], hbody⟩
      · cases h
    · cases h
  · rintro ⟨rfl, hbody⟩
    have hclose : close o c (body ++ c :: c :: after) = some (body, after) :=
      close_eq_some_iff.mpr ⟨rfl, hbody⟩
    simpa [wrapped, placeholderAt] using hclose

theorem Free.tail {x : Char} {text : List Char} (h : Free o c (x :: text)) : Free o c text := by
  rintro before body after rfl
  exact h (x :: before) body after rfl

/-- **Nothing is found in a text that is free of placeholders**, and only there. -/
theorem find_eq_none_iff {text : List Char} : find o c text = none ↔ Free o c text := by
  induction text with
  | nil =>
    refine iff_of_true rfl fun before body after h => ?_
    simp [wrapped] at h
  | cons x text ih =>
    cases hat : placeholderAt o c (x :: text) with
    | some found =>
      obtain ⟨body, after⟩ := found
      obtain ⟨htext, hbody⟩ := placeholderAt_eq_some_iff.mp hat
      refine iff_of_false (by simp [find, hat]) fun hfree => ?_
      exact hfree [] body after htext hbody
    | none =>
      have hnext : find o c (x :: text) = none ↔ find o c text = none := by
        rw [find, hat]
        cases find o c text <;> simp
      rw [hnext, ih]
      refine ⟨fun hfree before body after htext hbody => ?_, Free.tail⟩
      cases before with
      | nil =>
        have hsome := placeholderAt_eq_some_iff.mpr ⟨htext, hbody⟩
        rw [hat] at hsome
        cases hsome
      | cons y before => exact hfree before body after (List.cons.inj htext).2 hbody

/-- Behind its first two characters a placeholder has no opening one. -/
theorem open_not_mem {body : List Char} (hne : o ≠ c) (hbody : ∀ x ∈ body, plain o c x = true) :
    o ∉ body ++ [c, c] := by
  intro hmem
  rcases List.mem_append.mp hmem with hmem | hmem
  · have hplain := hbody o hmem
    rw [not_plain_open] at hplain
    cases hplain
  · simp [hne] at hmem

/-- **Two placeholders do not overlap**: what is read as a placeholder in front of another one
ends before it. -/
theorem not_overlapping (hne : o ≠ c) {x : Char} {before body rest body' after : List Char}
    (hbody' : ∀ x ∈ body', plain o c x = true)
    (h : x :: before ++ (wrapped o c body ++ rest) = wrapped o c body' ++ after) :
    ∃ between, x :: before = wrapped o c body' ++ between := by
  have hno := open_not_mem hne hbody'
  rcases List.append_eq_append_iff.mp h with ⟨common, hover, hrest⟩ | ⟨between, hbetween, -⟩
  · -- `common` is the part of the other placeholder that would lie in this one
    cases common with
    | nil => exact ⟨[], by simpa using hover.symm⟩
    | cons y common =>
      obtain ⟨rfl, hsecond⟩ : o = y ∧ o :: (body ++ [c, c]) ++ rest = common ++ after :=
        List.cons.inj hrest
      refine absurd ?_ hno
      cases before with
      | nil =>
        have hover' : body' ++ [c, c] = common := (List.cons.inj (List.cons.inj hover).2).2
        rw [hover']
        cases common with
        | nil => simp at hover'
        | cons z common =>
          obtain ⟨rfl, -⟩ := List.cons.inj hsecond
          exact List.mem_cons_self
      | cons z before =>
        have hover' : body' ++ [c, c] = before ++ o :: common :=
          (List.cons.inj (List.cons.inj hover).2).2
        rw [hover']
        exact List.mem_append_right _ List.mem_cons_self
  · exact ⟨between, hbetween⟩

/-- **What is found is the leftmost placeholder**: the one behind a text that is free of them. -/
theorem find_eq_some_iff (hne : o ≠ c) {text before body after : List Char} :
    find o c text = some (before, body, after) ↔
      text = before ++ (wrapped o c body ++ after) ∧ (∀ x ∈ body, plain o c x = true) ∧
        Free o c before := by
  constructor
  · intro h
    induction text generalizing before with
    | nil => cases h
    | cons x text ih =>
      rw [find] at h
      cases hat : placeholderAt o c (x :: text) with
      | some found =>
        obtain ⟨body', after'⟩ := found
        rw [hat] at h
        obtain ⟨rfl, rfl, rfl⟩ : [] = before ∧ body' = body ∧ after' = after := by simpa using h
        obtain ⟨htext, hbody⟩ := placeholderAt_eq_some_iff.mp hat
        refine ⟨htext, hbody, fun b p a hempty => ?_⟩
        simp [wrapped] at hempty
      | none =>
        rw [hat] at h
        cases hfound : find o c text with
        | none => simp [hfound] at h
        | some found =>
          obtain ⟨before', body', after'⟩ := found
          obtain ⟨rfl, rfl, rfl⟩ : x :: before' = before ∧ body' = body ∧ after' = after := by
            simpa [hfound] using h
          obtain ⟨rfl, hbody, hfree⟩ := ih hfound
          refine ⟨rfl, hbody, fun b p a hsplit hp => ?_⟩
          cases b with
          | nil =>
            -- a placeholder at the front would have been read there
            have hsome : placeholderAt o c (x :: (before' ++ (wrapped o c body' ++ after'))) =
                some (p, a ++ (wrapped o c body' ++ after')) := by
              refine placeholderAt_eq_some_iff.mpr ⟨?_, hp⟩
              rw [← List.cons_append, hsplit]
              simp
            rw [hat] at hsome
            cases hsome
          | cons y b => exact hfree b p a (List.cons.inj hsplit).2 hp
  · rintro ⟨rfl, hbody, hfree⟩
    induction before with
    | nil =>
      have hat : placeholderAt o c (wrapped o c body ++ after) = some (body, after) :=
        placeholderAt_eq_some_iff.mpr ⟨rfl, hbody⟩
      rw [wrapped, List.cons_append] at hat
      rw [List.nil_append, wrapped, List.cons_append, find, hat]
    | cons x before ih =>
      have hat : placeholderAt o c (x :: (before ++ (wrapped o c body ++ after))) = none := by
        rw [Option.eq_none_iff_forall_not_mem]
        rintro ⟨body', after'⟩ hsome
        obtain ⟨htext, hbody'⟩ := placeholderAt_eq_some_iff.mp hsome
        obtain ⟨between, hbetween⟩ := not_overlapping hne hbody' htext
        exact hfree [] body' between hbetween hbody'
      rw [List.cons_append, find, hat, ih hfree.tail]

end Placeholders
