import Mathlib.Algebra.GroupWithZero.Nat
import Mathlib.Data.List.Count
import Mathlib.Data.List.Infix

/-! # Delimited identifiers

The grammar of quoted names that query languages share: an identifier is an
opening character, contents in which a literal closing character is written
twice, and a closing character.  The alphabet is any type, the two delimiters
any two of its characters, possibly equal.

The reader is greedy, as lexers are: two closing characters in a row are a
literal one.  Each reader comes with one lemma that says which inputs it accepts
and with what result (`scanContents_iff`, `identifier_iff`, `identifiers_iff`).
Reading back what was written is one half of it; the other half says that no
other text reads as these names.
-/
namespace DelimitedIdentifier
variable {α : Type} [DecidableEq α]

/-! ## Writing -/

/-- The contents of an identifier: every closing character is doubled. -/
def escape (closing : α) : List α → List α
  | [] => []
  | a :: name => if a = closing then a :: a :: escape closing name else a :: escape closing name

/-- A delimited identifier: the name between the two delimiting characters, as it is. -/
def delimit (opening closing : α) (name : List α) : List α :=
  opening :: (escape closing name ++ [closing])

omit [DecidableEq α] in
/-- Names written by `write`, with a separator between any two. -/
def writeList (write : List α → List α) (sep : List α) : List (List α) → List α
  | [] => []
  | [name] => write name
  | name :: next :: names => write name ++ (sep ++ writeList write sep (next :: names))

theorem escape_length (closing : α) (name : List α) :
    (escape closing name).length = name.length + name.count closing := by
  induction name with
  | nil => rfl
  | cons a name ih =>
    by_cases h : a = closing
    · subst h
      simp only [escape, ite_true, List.length_cons, List.count_cons_self, ih]
      omega
    · simp only [escape, h, ite_false, List.length_cons, List.count_cons_of_ne h, ih]
      omega

/-- Nothing is doubled in a name without a closing character. -/
theorem escape_of_notMem {closing : α} {name : List α} (h : closing ∉ name) :
    escape closing name = name := by
  induction name with
  | nil => rfl
  | cons a name ih =>
    obtain ⟨ha, hname⟩ := not_or.mp (mt List.mem_cons.mpr h)
    rw [escape, if_neg (Ne.symm ha), ih hname]

omit [DecidableEq α] in
/-- The length of a list of names, however they are written: the separators
contribute the same. -/
theorem writeList_length (write : List α → List α) (sep : List α) (names : List (List α)) :
    (writeList write sep names).length =
      (names.map (fun n => (write n).length)).sum + (names.length - 1) * sep.length := by
  induction names with
  | nil => simp [writeList]
  | cons name names ih =>
    cases names with
    | nil => simp [writeList]
    | cons next names =>
      rw [writeList, List.length_append, List.length_append, ih]
      simp only [List.map_cons, List.sum_cons, List.length_cons, Nat.add_sub_cancel,
        Nat.add_mul, Nat.one_mul]
      omega

/-- A list of delimited names is at least as long as the number of names. -/
theorem length_le_writeList (opening closing : α) (sep : List α) (names : List (List α)) :
    names.length ≤ (writeList (delimit opening closing) sep names).length := by
  induction names with
  | nil => exact Nat.zero_le _
  | cons name names ih =>
    cases names with
    | nil => simp [writeList, delimit]
    | cons next names =>
      rw [writeList, List.length_append, List.length_append]
      simp only [List.length_cons, delimit] at ih ⊢
      omega

omit [DecidableEq α] in
theorem writeList_congr {write write' : List α → List α} (sep : List α)
    {names : List (List α)} (h : ∀ n ∈ names, write n = write' n) :
    writeList write sep names = writeList write' sep names := by
  induction names with
  | nil => rfl
  | cons name names ih =>
    have hn := h name (List.mem_cons_self ..)
    cases names with
    | nil => exact hn
    | cons next names =>
      rw [writeList, writeList, hn, ih (fun n hn => h n (List.mem_cons_of_mem _ hn))]

omit [DecidableEq α] in
/-- A list of names written from left to right: a separator comes before every
name but the first. -/
theorem writeList_flatMap (write : List α → List α) (sep name : List α)
    (names : List (List α)) :
    writeList write sep (name :: names) =
      write name ++ names.flatMap (fun n => sep ++ write n) := by
  induction names generalizing name with
  | nil => simp [writeList]
  | cons next names ih =>
    rw [writeList, ih next, List.flatMap_cons, List.append_assoc]

/-! ## Reading -/

/-- Read contents up to the first closing character that is not doubled.  The
result is the name and what follows it. -/
def scanContents (closing : α) : List α → Option (List α × List α)
  | [] => none
  | [a] => if a = closing then some ([], []) else none
  | a :: b :: text =>
    if a = closing then
      if b = closing then
        (scanContents closing text).map (fun r => (closing :: r.1, r.2))
      else some ([], b :: text)
    else (scanContents closing (b :: text)).map (fun r => (a :: r.1, r.2))

/-- Read one identifier from the front of a text, with its closing characters doubled inside it. -/
def identifier (opening closing : α) : List α → Option (List α × List α)
  | [] => none
  | a :: text => if a = opening then scanContents closing text else none

/-- Read a text that must come next. -/
def literal : List α → List α → Option (List α)
  | [], text => some text
  | _ :: _, [] => none
  | e :: expected, a :: text => if a = e then literal expected text else none

/-- Read identifiers with separators between them.  `fuel` bounds their number. -/
def identifiers (opening closing : α) (sep : List α) :
    Nat → List α → Option (List (List α) × List α)
  | 0, _ => none
  | fuel + 1, text =>
    match identifier opening closing text with
    | none => none
    | some (name, rest) =>
      match literal sep rest with
      | none => some ([name], rest)
      | some rest' =>
        (identifiers opening closing sep fuel rest').map (fun r => (name :: r.1, r.2))

/-- **What `scanContents` accepts**: escaped contents, then a closing character
that no second one follows. -/
theorem scanContents_iff (closing : α) (text name rest : List α) :
    scanContents closing text = some (name, rest) ↔
      text = escape closing name ++ closing :: rest ∧ rest.head? ≠ some closing := by
  induction text using scanContents.induct closing generalizing name with
  | case1 => simp [scanContents]
  | case2 =>
    cases name with
    | nil => cases rest <;> simp [scanContents, escape]
    | cons c name => by_cases h : c = closing <;> simp [scanContents, escape, h]
  | case3 a h =>
    cases name with
    | nil => simp [scanContents, escape, h]
    | cons c name => by_cases hc : c = closing <;> simp [scanContents, escape, h, hc]
  | case4 text ih =>
    -- two closing characters: a literal one
    rw [scanContents, if_pos rfl, if_pos rfl]
    cases name with
    | nil => cases rest <;> simp_all [escape]
    | cons c name =>
      by_cases hc : c = closing
      · subst hc
        simp only [Option.map_eq_some_iff, Prod.mk.injEq, List.cons.injEq, true_and, escape,
          if_true, List.cons_append]
        constructor
        · rintro ⟨⟨n, r⟩, hs, rfl, rfl⟩
          exact (ih n).mp hs
        · exact fun h => ⟨(name, rest), (ih name).mpr h, rfl, rfl⟩
      · simp only [Option.map_eq_some_iff, Prod.mk.injEq, List.cons.injEq, escape, hc, if_false,
          List.cons_append]
        constructor
        · rintro ⟨_, _, ⟨hc', -⟩, -⟩
          exact absurd hc'.symm hc
        · rintro ⟨⟨hc', -⟩, -⟩
          exact absurd hc'.symm hc
  | case5 b text hb =>
    -- the identifier ends here
    rw [scanContents, if_pos rfl, if_neg hb]
    cases name with
    | nil => simp_all [escape, eq_comm]
    | cons c name =>
      by_cases hc : c = closing
      · subst hc
        simp [escape, hb]
      · simp [escape, hc, Ne.symm hc]
  | case6 a b text ha ih =>
    rw [scanContents, if_neg ha]
    cases name with
    | nil => simp [escape, ha]
    | cons c name =>
      simp only [Option.map_eq_some_iff, Prod.mk.injEq, List.cons.injEq, escape]
      constructor
      · rintro ⟨⟨n, r⟩, hs, ⟨rfl, rfl⟩, rfl⟩
        obtain ⟨he, hr⟩ := (ih n).mp hs
        refine ⟨?_, hr⟩
        rw [if_neg ha, List.cons_append, he]
      · rintro ⟨he, hr⟩
        by_cases hc : c = closing
        · subst hc
          rw [if_pos rfl] at he
          exact absurd (List.cons.inj he).1 ha
        · rw [if_neg hc] at he
          obtain ⟨rfl, htext⟩ := List.cons.inj he
          exact ⟨(name, rest), (ih name).mpr ⟨htext, hr⟩, ⟨rfl, rfl⟩, rfl⟩

theorem identifier_iff (opening closing : α) (text name rest : List α) :
    identifier opening closing text = some (name, rest) ↔
      text = delimit opening closing name ++ rest ∧ rest.head? ≠ some closing := by
  cases text with
  | nil => simp [identifier, delimit]
  | cons a text =>
    simp only [identifier, delimit, List.cons_append, List.append_assoc, List.nil_append,
      List.cons.injEq]
    by_cases h : a = opening
    · simp [h, scanContents_iff]
    · simp [h]

theorem literal_iff (expected text rest : List α) :
    literal expected text = some rest ↔ text = expected ++ rest := by
  induction expected generalizing text with
  | nil => simp [literal]
  | cons e expected ih =>
    cases text with
    | nil => simp [literal]
    | cons a text =>
      by_cases h : a = e
      · simp [literal, h, ih]
      · simp [literal, h]

@[simp] theorem literal_append (expected rest : List α) :
    literal expected (expected ++ rest) = some rest :=
  (literal_iff ..).mpr rfl

theorem literal_none_iff (expected text : List α) :
    literal expected text = none ↔ ¬ expected <+: text := by
  constructor
  · rintro h ⟨rest, rfl⟩
    rw [literal_append] at h
    cases h
  · intro h
    cases hl : literal expected text with
    | none => rfl
    | some rest => exact absurd ⟨rest, ((literal_iff _ _ _).mp hl).symm⟩ h

omit [DecidableEq α] in
/-- `writeList` of a name and more names. -/
theorem writeList_cons (write : List α → List α) (sep name : List α) {names : List (List α)}
    (h : names ≠ []) :
    writeList write sep (name :: names) = write name ++ (sep ++ writeList write sep names) := by
  cases names with
  | nil => exact absurd rfl h
  | cons next names => rfl

/-- **What `identifiers` accepts**, for a separator that starts with `s`:
delimited names, where neither a separator nor what follows the list starts with
a closing character, and no further separator follows. -/
theorem identifiers_iff (opening closing s : α) (sep' : List α) (fuel : Nat)
    (text : List α) (names : List (List α)) (rest : List α) :
    identifiers opening closing (s :: sep') fuel text = some (names, rest) ↔
      names ≠ [] ∧ names.length ≤ fuel ∧
        text = writeList (delimit opening closing) (s :: sep') names ++ rest ∧
        (2 ≤ names.length → s ≠ closing) ∧ rest.head? ≠ some closing ∧
        ¬ (s :: sep') <+: rest := by
  induction fuel generalizing text names with
  | zero =>
    simp only [identifiers, Nat.le_zero, List.length_eq_zero_iff]
    exact ⟨nofun, fun h => absurd h.2.1 h.1⟩
  | succ fuel ih =>
    rw [identifiers]
    constructor
    · intro h
      split at h
      · cases h
      · rename_i name after hid
        obtain ⟨htext, hafter⟩ := (identifier_iff ..).mp hid
        split at h
        · -- the last identifier
          rename_i hlit
          obtain ⟨rfl, rfl⟩ := Prod.mk.inj (Option.some.inj h)
          exact ⟨List.cons_ne_nil _ _, by simp, htext, by simp, hafter,
            (literal_none_iff ..).mp hlit⟩
        · rename_i more hlit
          obtain ⟨⟨names', rest'⟩, hmore, he⟩ := Option.map_eq_some_iff.mp h
          obtain ⟨rfl, rfl⟩ := Prod.mk.inj he
          obtain ⟨hne, hlen, hm, -, hhead, hsep⟩ := (ih more names').mp hmore
          obtain rfl := (literal_iff ..).mp hlit
          refine ⟨List.cons_ne_nil _ _, by simpa using hlen, ?_, ?_, hhead, hsep⟩
          · rw [htext, writeList_cons _ _ _ hne, hm]
            simp only [List.append_assoc]
          · rintro - rfl
            exact hafter rfl
    · rintro ⟨hne, hlen, htext, hs, hhead, hsep⟩
      cases names with
      | nil => exact absurd rfl hne
      | cons name names =>
        by_cases hnil : names = []
        · subst hnil
          have hid := (identifier_iff opening closing text name rest).mpr ⟨htext, hhead⟩
          simp only [hid, (literal_none_iff _ _).mpr hsep]
        · have h2 : 2 ≤ (name :: names).length := by
            have := List.length_pos_iff.mpr hnil
            simp only [List.length_cons]
            omega
          rw [writeList_cons _ _ _ hnil, List.append_assoc, List.append_assoc] at htext
          have hid := (identifier_iff opening closing text name _).mpr
            ⟨htext, by simpa using hs h2⟩
          have hlit := (literal_iff (s :: sep') _
            (writeList (delimit opening closing) (s :: sep') names ++ rest)).mpr rfl
          have hmore := (ih _ names).mpr
            ⟨hnil, by simpa using hlen, rfl, fun _ => hs h2, hhead, hsep⟩
          simp only [hid, hlit, hmore, Option.map_some]

end DelimitedIdentifier
