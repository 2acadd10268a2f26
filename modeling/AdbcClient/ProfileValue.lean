import AdbcClient.DriverCalls
import AdbcClient.Placeholders
import Mathlib.Data.List.DropRight

/-!
# The values in a connection profile

A value in a profile may name environment variables: `{{ env_var(NAME) }}` stands for the
value of `NAME` (`ProcessProfileValue`, `adbc_driver_manager_profiles.cpp`).  The code searches
the value from left to right with a regular expression for two opening braces, a text without
braces and two closing ones, and takes blanks off the text.

`Expands` says what a value means, and `processProfileValue_ok_iff` that the code computes just
that: what a variable stands for is not searched again, and braces that do not come in pairs
are kept.  Any other placeholder is an error.
-/
namespace AdbcClient
open Placeholders

/-- `\s` of the regular expression: the blanks of the C locale. -/
def isBlank (x : Char) : Bool :=
  x == ' ' || x == '\t' || x == '\n' || x == '\x0b' || x == '\x0c' || x == '\r'

/-- `match[1]`: the text between the braces without the blanks at its ends. -/
def placeholderContent (body : List Char) : List Char :=
  (body.dropWhile isBlank).rdropWhile isBlank

/-- `env_var(`. -/
def envVarCall : List Char := ['e', 'n', 'v', '_', 'v', 'a', 'r', '(']

/-- `ADBC_STATUS_INVALID_ARGUMENT`, with a message about a value of a profile. -/
def profileError (message : String) : Failure := .invalidArgument ("In profile: " ++ message)

/-- The name of the variable in a placeholder of the value under a key. -/
def envVarName (key content : List Char) : Except Failure (List Char) :=
  if ¬ envVarCall <+: content then
    .error (profileError ("unsupported interpolation type in key `" ++ String.ofList key ++
      "`: `" ++ String.ofList content ++ "`"))
  else if content.getLast? ≠ some ')' then
    .error (profileError ("malformed env_var() in key `" ++ String.ofList key ++
      "`: missing closing parenthesis"))
  else
    let name := (content.drop 8).dropLast
    if name = [] then
      .error (profileError ("malformed env_var() in key `" ++ String.ofList key ++
        "`: missing environment variable name"))
    else .ok name

/-- `std::getenv`, with nothing for a variable that is not set. -/
def envVarValue (getenv : List Char → Option (List Char)) (name : List Char) : List Char :=
  (getenv (cString name)).getD []

/-- The loop over the matches.  Each one is behind the last one, so that the length of the
value bounds how many there are. -/
def expandMatches (getenv : List Char → Option (List Char)) (key : List Char) :
    Nat → List Char → Except Failure (List Char)
  | 0, text => .ok text
  | fuel + 1, text =>
    match find '\x7b' '\x7d' text with
    | none => .ok text
    | some (before, body, after) =>
      match envVarName key (placeholderContent body) with
      | .error failure => .error failure
      | .ok name =>
        (expandMatches getenv key fuel after).map fun rest =>
          before ++ (envVarValue getenv name ++ rest)

/-- `ProcessProfileValue`. -/
def processProfileValue (getenv : List Char → Option (List Char)) (key value : List Char) :
    Except Failure (List Char) :=
  if value = [] then .ok []
  else expandMatches getenv key value.length value

/-! ## What a value means -/

/-- A placeholder for a variable, with blanks around the call. -/
structure VariablePlaceholder where
  leading : List Char
  name : List Char
  trailing : List Char
  blank : ∀ x ∈ leading ++ trailing, isBlank x = true
  name_plain : ∀ x ∈ name, plain '\x7b' '\x7d' x = true
  name_ne : name ≠ []

namespace VariablePlaceholder

/-- What is between the braces of the placeholder, with its blanks. -/
def body (p : VariablePlaceholder) : List Char :=
  p.leading ++ (envVarCall ++ p.name ++ [')'] ++ p.trailing)

end VariablePlaceholder

/-- **What a value of a profile stands for.** -/
inductive Expands (getenv : List Char → Option (List Char)) : List Char → List Char → Prop
  | last {text : List Char} (free : Free '\x7b' '\x7d' text) : Expands getenv text text
  | envVar {before after rest : List Char} (free : Free '\x7b' '\x7d' before)
      (p : VariablePlaceholder) (h : Expands getenv after rest) :
      Expands getenv (before ++ (wrapped '\x7b' '\x7d' p.body ++ after))
        (before ++ (envVarValue getenv p.name ++ rest))

/-! ## Placeholders for variables -/

/-- What takes the blanks off leaves the rest as it is. -/
theorem placeholderContent_eq {leading content trailing : List Char} {first last : Char}
    (hleading : ∀ x ∈ leading, isBlank x = true) (htrailing : ∀ x ∈ trailing, isBlank x = true)
    (hfirst : isBlank first = false) (hlast : isBlank last = false) :
    placeholderContent (leading ++ (first :: content ++ [last] ++ trailing)) =
      first :: content ++ [last] := by
  have hfront : (leading ++ (first :: content ++ [last] ++ trailing)).dropWhile isBlank =
      first :: content ++ [last] ++ trailing := by
    rw [List.dropWhile_append_of_pos hleading, List.cons_append, List.cons_append,
      List.dropWhile_cons_of_neg (by simp [hfirst])]
  have hback : (first :: content ++ [last] ++ trailing).reverse.dropWhile isBlank =
      (first :: content ++ [last]).reverse := by
    rw [List.reverse_append, List.dropWhile_append_of_pos (by simpa using htrailing),
      List.reverse_append, List.reverse_singleton, List.singleton_append,
      List.dropWhile_cons_of_neg (by simp [hlast])]
  rw [placeholderContent, hfront, List.rdropWhile, hback, List.reverse_reverse]

/-- A text without the blanks at its ends is a part of the text, between blanks. -/
theorem placeholderContent_split (body : List Char) :
    ∃ leading trailing, (∀ x ∈ leading ++ trailing, isBlank x = true) ∧
      body = leading ++ (placeholderContent body ++ trailing) := by
  refine ⟨body.takeWhile isBlank, (body.dropWhile isBlank).rtakeWhile isBlank, ?_, ?_⟩
  · intro x hx
    rcases List.mem_append.mp hx with hx | hx
    · exact List.mem_takeWhile_imp hx
    · exact List.mem_rtakeWhile_imp hx
  · have hback : (body.dropWhile isBlank).rdropWhile isBlank ++
        (body.dropWhile isBlank).rtakeWhile isBlank = body.dropWhile isBlank := by
      rw [List.rdropWhile, List.rtakeWhile, ← List.reverse_append,
        List.takeWhile_append_dropWhile, List.reverse_reverse]
    rw [placeholderContent, hback, List.takeWhile_append_dropWhile]

/-- **What is taken for the name of a variable.** -/
theorem envVarName_ok_iff {key content name : List Char} :
    envVarName key content = .ok name ↔ content = envVarCall ++ name ++ [')'] ∧ name ≠ [] := by
  constructor
  · intro h
    rw [envVarName] at h
    split at h
    · cases h
    · rename_i hcall
      split at h
      · cases h
      · rename_i hclosed
        rw [Classical.not_not] at hcall hclosed
        obtain ⟨rest, rfl⟩ := hcall
        have hrest : (envVarCall ++ rest).drop 8 = rest := rfl
        rw [hrest] at h
        simp only at h
        split at h
        · cases h
        · rename_i hname
          obtain rfl := Except.ok.inj h
          have hne : rest ≠ [] := by
            rintro rfl
            exact hname rfl
          have hlast : rest.getLast? = some ')' := by
            rw [List.getLast?_append_of_ne_nil _ hne] at hclosed
            exact hclosed
          refine ⟨?_, hname⟩
          rw [List.append_assoc, List.dropLast_append_getLast? _ hlast]
  · rintro ⟨rfl, hname⟩
    have hcall : envVarCall <+: envVarCall ++ name ++ [')'] :=
      ⟨name ++ [')'], (List.append_assoc ..).symm⟩
    have hdrop : ((envVarCall ++ name ++ [')']).drop 8).dropLast = name := by
      rw [List.append_assoc]
      exact List.dropLast_concat
    rw [envVarName, if_neg (not_not.mpr hcall), if_neg (by simp)]
    simp only [hdrop, if_neg hname]

/-- **Which placeholders are for a variable**: those of the form `env_var(NAME)` with a name. -/
theorem envVarName_body_iff {key body name : List Char}
    (hbody : ∀ x ∈ body, plain '\x7b' '\x7d' x = true) :
    envVarName key (placeholderContent body) = .ok name ↔
      ∃ p : VariablePlaceholder, body = p.body ∧ name = p.name := by
  rw [envVarName_ok_iff]
  constructor
  · rintro ⟨hcontent, hname⟩
    obtain ⟨leading, trailing, hblank, hsplit⟩ := placeholderContent_split body
    rw [hcontent] at hsplit
    refine ⟨⟨leading, name, trailing, hblank, fun x hx => hbody x ?_, hname⟩, hsplit, rfl⟩
    rw [hsplit]
    simp [hx]
  · rintro ⟨p, rfl, rfl⟩
    refine ⟨?_, p.name_ne⟩
    exact placeholderContent_eq (fun x hx => p.blank x (List.mem_append_left _ hx))
      (fun x hx => p.blank x (List.mem_append_right _ hx)) (by decide) (by decide)

/-- A blank is no brace, so that it opens and closes no placeholder. -/
theorem plain_of_blank {x : Char} (h : isBlank x = true) : plain '\x7b' '\x7d' x = true := by
  by_contra hbrace
  have hx : x = '\x7b' ∨ x = '\x7d' := by
    by_contra hneither
    rw [not_or] at hneither
    exact hbrace (by simp [plain, hneither])
  rcases hx with rfl | rfl
  · exact absurd h (by decide)
  · exact absurd h (by decide)

theorem VariablePlaceholder.body_plain (p : VariablePlaceholder) :
    ∀ x ∈ p.body, plain '\x7b' '\x7d' x = true := by
  have hcall : ∀ x ∈ envVarCall, plain '\x7b' '\x7d' x = true :=
    List.all_eq_true.mp (by decide)
  intro x hx
  simp only [body, List.mem_append, List.mem_singleton] at hx
  rcases hx with hx | ((hx | hx) | rfl) | hx
  · exact plain_of_blank (p.blank x (List.mem_append_left _ hx))
  · exact hcall x hx
  · exact p.name_plain x hx
  · decide
  · exact plain_of_blank (p.blank x (List.mem_append_right _ hx))

/-! ## The loop -/

variable {getenv : List Char → Option (List Char)} {key text out : List Char}

/-- Without a placeholder a value stands for itself. -/
theorem expands_none_iff (h : find '\x7b' '\x7d' text = none) :
    Expands getenv text out ↔ out = text := by
  constructor
  · intro hout
    cases hout with
    | last free => rfl
    | envVar free p hrest =>
      rw [(find_eq_some_iff (by decide)).mpr ⟨rfl, p.body_plain, free⟩] at h
      cases h
  · rintro rfl
    exact .last (find_eq_none_iff.mp h)

/-- With one, it is the leftmost placeholder that matters first. -/
theorem expands_some_iff {before body after : List Char}
    (h : find '\x7b' '\x7d' text = some (before, body, after)) :
    Expands getenv text out ↔
      ∃ p : VariablePlaceholder, body = p.body ∧ ∃ rest, Expands getenv after rest ∧
        out = before ++ (envVarValue getenv p.name ++ rest) := by
  constructor
  · intro hout
    cases hout with
    | last free =>
      rw [find_eq_none_iff.mpr free] at h
      cases h
    | @envVar before' after' rest free p hrest =>
      rw [(find_eq_some_iff (by decide)).mpr ⟨rfl, p.body_plain, free⟩] at h
      obtain ⟨rfl, hbody, rfl⟩ : before' = before ∧ p.body = body ∧ after' = after := by
        simpa using h
      exact ⟨p, hbody.symm, rest, hrest, rfl⟩
  · rintro ⟨p, rfl, rest, hrest, rfl⟩
    obtain ⟨rfl, -, hfree⟩ := (find_eq_some_iff (by decide)).mp h
    exact .envVar hfree p hrest

/-- **The loop**, with enough fuel for the rest of the value. -/
theorem expandMatches_ok_iff {fuel : Nat} (hfuel : text.length ≤ fuel) :
    expandMatches getenv key fuel text = .ok out ↔ Expands getenv text out := by
  induction fuel generalizing text out with
  | zero =>
    obtain rfl : text = [] := List.eq_nil_of_length_eq_zero (Nat.le_zero.mp hfuel)
    rw [expands_none_iff rfl, expandMatches, Except.ok.injEq]
    exact eq_comm
  | succ fuel ih =>
    -- what is behind the leftmost placeholder is shorter, and the fuel is enough for it
    cases hfind : find '\x7b' '\x7d' text with
    | none =>
      rw [expands_none_iff hfind, expandMatches, hfind]
      show Except.ok text = Except.ok out ↔ out = text
      rw [Except.ok.injEq]
      exact eq_comm
    | some found =>
      obtain ⟨before, body, after⟩ := found
      obtain ⟨htext, hbody, -⟩ := (find_eq_some_iff (by decide)).mp hfind
      have hafter : after.length ≤ fuel := by
        have hlength := congrArg List.length htext
        simp only [wrapped, List.length_append, List.length_cons] at hlength
        omega
      rw [expands_some_iff hfind, expandMatches, hfind]
      simp only
      cases hname : envVarName key (placeholderContent body) with
      | error failure =>
        refine iff_of_false (fun h => by cases h) ?_
        rintro ⟨p, hp, -⟩
        rw [(envVarName_body_iff hbody).mpr ⟨p, hp, rfl⟩] at hname
        cases hname
      | ok name =>
        obtain ⟨p, hp, rfl⟩ := (envVarName_body_iff hbody).mp hname
        constructor
        · intro h
          cases hrest : expandMatches getenv key fuel after with
          | error failure =>
            rw [hrest] at h
            cases h
          | ok rest =>
            rw [hrest] at h
            exact ⟨p, hp, rest, (ih hafter).mp hrest, (Except.ok.inj h).symm⟩
        · rintro ⟨p', hp', rest, hrest, rfl⟩
          have hsame : Except.ok p.name = Except.ok p'.name :=
            hname.symm.trans ((envVarName_body_iff hbody).mpr ⟨p', hp', rfl⟩)
          rw [(ih hafter).mpr hrest, Except.ok.inj hsame]
          rfl

/-- There is nothing to expand in an empty value. -/
theorem processProfileValue_eq (getenv : List Char → Option (List Char)) (key value : List Char) :
    processProfileValue getenv key value = expandMatches getenv key value.length value := by
  rw [processProfileValue]
  split
  · rename_i hempty
    subst hempty
    rfl
  · rfl

/-- **The values of a profile**: the code computes what a value stands for, and fails on every
value that does not stand for anything. -/
theorem processProfileValue_ok_iff (getenv : List Char → Option (List Char))
    (key value out : List Char) :
    processProfileValue getenv key value = .ok out ↔ Expands getenv value out := by
  rw [processProfileValue_eq]
  exact expandMatches_ok_iff le_rfl

/-- A variable whose value looks like a placeholder. -/
example : processProfileValue
    (fun name => if name = ['A'] then some ['\x7b', '\x7b', 'B', '\x7d', '\x7d'] else none) []
    ("x=\x7b\x7b env_var(A) \x7d\x7d;".toList) = .ok "x=\x7b\x7bB\x7d\x7d;".toList := by
  decide

end AdbcClient
