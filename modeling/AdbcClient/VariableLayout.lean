import Mathlib.Algebra.BigOperators.Group.List.Lemmas
import Mathlib.Algebra.GroupWithZero.Nat

/-!
# Variable-size layouts

Lists and strings as the Arrow C data interface lays them out.  The values of an array
start `offset` slots into its buffers.  Slot `p` of an offset buffer delimits the
positions from its entry `p` up to its entry `p + 1`, in a child array or in a text, and
the validity bitmap may say that a slot is null, whatever it delimits.

`positions`, `value` and `name` are what an array means.  `walk` and `readTexts` are what
a reader gets from the buffers of an array if it looks at nothing else, and `none` if it
leaves them.  `reads_names_iff` compares the two.
-/
namespace VariableLayout

/-- What every array has: its length, its offset, and a validity bitmap that covers its slots, if
there is one. -/
structure Header where
  length : Nat
  offset : Nat
  validity : Option (List Bool)
  covered : ∀ bits, validity = some bits → offset + length ≤ bits.length

/-- Whether a value is not null.  Without a bitmap none is. -/
def Header.isValid (a : Header) (i : Nat) : Bool :=
  match a.validity with
  | none => true
  | some bits => bits.getD (a.offset + i) true

/-- An array whose slots delimit positions up to `limit`. -/
structure Ranges (limit : Nat) extends Header where
  offsets : List Nat
  size : length ≠ 0 → offset + length < offsets.length
  sorted : ∀ i < length, offsets.getD (offset + i) 0 ≤ offsets.getD (offset + i + 1) 0
  bounded : ∀ i < length, offsets.getD (offset + i + 1) 0 ≤ limit

/-- The positions between two entries of an offset buffer. -/
def between (start stop : Nat) : List Nat := List.range' start (stop - start)

/-- The positions that the slot of a value delimits. -/
def Ranges.positions {limit : Nat} (a : Ranges limit) (i : Nat) : List Nat :=
  between (a.offsets.getD (a.offset + i) 0) (a.offsets.getD (a.offset + i + 1) 0)

/-- A list, as the positions of its elements. -/
def Ranges.value {limit : Nat} (a : Ranges limit) (i : Nat) : Option (List Nat) :=
  if a.isValid i then some (a.positions i) else none

/-- What the slots `ps` of an offset buffer delimit, one after the other. -/
def walk (offsets : List Nat) : List Nat → Option (List Nat)
  | [] => some []
  | p :: ps => do
    let start ← offsets[p]?
    let stop ← offsets[p + 1]?
    let rest ← walk offsets ps
    return between start stop ++ rest

namespace Ranges
variable {limit : Nat} (a : Ranges limit)

/-- The slot of a value lies in the offset buffer. -/
theorem getElem?_slot {i : Nat} (hi : i < a.length) :
    a.offsets[a.offset + i]? = some (a.offsets.getD (a.offset + i) 0) ∧
      a.offsets[a.offset + i + 1]? = some (a.offsets.getD (a.offset + i + 1) 0) := by
  have hsize := a.size (by omega)
  constructor
  all_goals
    rw [List.getD_eq_getElem?_getD, List.getElem?_eq_getElem (by omega), Option.getD_some]

theorem lt_of_mem_positions {i p : Nat} (hi : i < a.length) (hp : p ∈ a.positions i) :
    p < limit := by
  have hsorted := a.sorted i hi
  have hbounded := a.bounded i hi
  rw [positions, between, List.mem_range'_1] at hp
  omega

/-- Walking the slots of values finds their positions. -/
theorem walk_slots {is : List Nat} (his : ∀ i ∈ is, i < a.length) :
    walk a.offsets (is.map (a.offset + ·)) = some (is.flatMap a.positions) := by
  induction is with
  | nil => rfl
  | cons i is ih =>
    obtain ⟨hstart, hstop⟩ := a.getElem?_slot (his i List.mem_cons_self)
    have hrest := ih fun i' hi' => his i' (List.mem_cons_of_mem i hi')
    rw [List.map_cons, walk, hstart, hstop, hrest]
    rfl

/-- A list that is not null, if a struct around it may be, consists of its positions. -/
theorem positions_of_value {valid : Bool} {i : Nat} {ps : List Nat}
    (h : (if valid then a.value i else none) = some ps) : a.positions i = ps := by
  rw [value] at h
  split at h
  · split at h
    · exact Option.some.inj h
    · cases h
  · cases h

/-- In an array that is not sliced, and whose null lists are empty, the walk finds the
elements of the lists. -/
theorem walk_elements (hoffset : a.offset = 0) {is : List Nat} (his : ∀ i ∈ is, i < a.length)
    {elements : Nat → Option (List Nat)}
    (hlist : ∀ i ∈ is, ∀ ps, elements i = some ps → a.positions i = ps)
    (hnull : ∀ i ∈ is, elements i = none → a.positions i = []) :
    walk a.offsets is = some (is.flatMap fun i => (elements i).getD []) := by
  have hslots : is.map (a.offset + ·) = is := by simp [hoffset]
  have hwalk := a.walk_slots his
  rw [hslots] at hwalk
  rw [hwalk]
  refine congrArg some (List.flatMap_congr fun i hi => ?_)
  cases helements : elements i with
  | none => exact hnull i hi helements
  | some ps => exact hlist i hi ps helements

end Ranges

/-! ## Strings -/

/-- An array of strings: the ranges of its slots, and the data that they delimit. -/
structure Strings where
  data : List Char
  ranges : Ranges data.length

namespace Strings
variable (a : Strings)

/-- The text that a slot delimits by two offsets that follow each other, whatever the bitmap
says. -/
def readText (p : Nat) : Option String := do
  let start ← a.ranges.offsets[p]?
  let stop ← a.ranges.offsets[p + 1]?
  if start ≤ stop ∧ stop ≤ a.data.length then
    return String.ofList ((a.data.drop start).take (stop - start))
  else none

/-- The texts that the slots `ps` delimit. -/
def readTexts : List Nat → Option (List String)
  | [] => some []
  | p :: ps => do
    let text ← a.readText p
    let rest ← readTexts ps
    return text :: rest

/-- The text in the slot of a value, which may be null. -/
def slotText (i : Nat) : String :=
  let start := a.ranges.offsets.getD (a.ranges.offset + i) 0
  let stop := a.ranges.offsets.getD (a.ranges.offset + i + 1) 0
  String.ofList ((a.data.drop start).take (stop - start))

/-- The string in a slot of the array, or nothing if the slot is null. -/
def value (i : Nat) : Option String :=
  if a.ranges.isValid i then some (a.slotText i) else none

theorem readText_slot {i : Nat} (hi : i < a.ranges.length) :
    a.readText (a.ranges.offset + i) = some (a.slotText i) := by
  obtain ⟨hstart, hstop⟩ := a.ranges.getElem?_slot hi
  have hbounds := And.intro (a.ranges.sorted i hi) (a.ranges.bounded i hi)
  rw [readText, hstart, hstop]
  exact if_pos hbounds

end Strings

/-! ## Structs with a name -/

/-- An array of structs, of which the first field is a name. -/
structure NamedStructs extends Header where
  names : Strings
  namesFit : offset + length ≤ names.ranges.length

namespace NamedStructs
variable (a : NamedStructs)

/-- The name of a struct, which is null if the struct is. -/
def name (k : Nat) : Option String :=
  if a.isValid k then a.names.value (a.offset + k) else none

/-- Where it is in the buffers of the names. -/
def nameSlot (k : Nat) : Nat := a.names.ranges.offset + (a.offset + k)

/-- No text belongs to a name that is null. -/
def NullsEmpty (ks : List Nat) : Prop :=
  ∀ k ∈ ks, a.name k = none → a.names.slotText (a.offset + k) = ""

/-- Every slot has a text of its own, and it is not null. -/
structure Telling : Prop where
  valid : ∀ k < a.length, a.name k ≠ none
  distinct : ∀ p q text, a.names.readText p = some text → a.names.readText q = some text → p = q

theorem readText_nameSlot {k : Nat} (hk : k < a.length) :
    a.names.readText (a.nameSlot k) = some (a.names.slotText (a.offset + k)) :=
  a.names.readText_slot (Nat.lt_of_lt_of_le (Nat.add_lt_add_left hk _) a.namesFit)

theorem name_eq_some {k : Nat} {text : String} (h : a.name k = some text) :
    text = a.names.slotText (a.offset + k) := by
  rw [name, Strings.value] at h
  split at h
  · split at h
    · exact (Option.some.inj h).symm
    · cases h
  · cases h

theorem readTexts_nameSlots {ks : List Nat} (hks : ∀ k ∈ ks, k < a.length) :
    a.names.readTexts (ks.map a.nameSlot) =
      some (ks.map (fun k => a.names.slotText (a.offset + k))) := by
  induction ks with
  | nil => rfl
  | cons k ks ih =>
    have hrest := ih fun k' hk' => hks k' (List.mem_cons_of_mem k hk')
    rw [List.map_cons, Strings.readTexts, a.readText_nameSlot (hks k List.mem_cons_self), hrest]
    rfl

/-- The texts in the slots are the names exactly if no text belongs to a null. -/
theorem slotTexts_eq_iff (ks : List Nat) :
    ks.map (fun k => a.names.slotText (a.offset + k)) = ks.map (fun k => (a.name k).getD "") ↔
      a.NullsEmpty ks := by
  rw [List.map_inj_left]
  refine forall₂_congr fun k _ => ?_
  cases hname : a.name k with
  | none => simp
  | some text => simp [a.name_eq_some hname]

/-- With a text of its own in every slot, the texts tell the slots. -/
theorem Telling.slots_eq {a : NamedStructs} (h : a.Telling) {ps qs : List Nat}
    {texts : List String} (hps : a.names.readTexts ps = some texts)
    (hqs : a.names.readTexts qs = some texts) : ps = qs := by
  induction ps generalizing qs texts with
  | nil =>
    obtain rfl : [] = texts := Option.some.inj hps
    cases qs with
    | nil => rfl
    | cons q qs => simp [Strings.readTexts, Option.bind_eq_some_iff] at hqs
  | cons p ps ih =>
    simp only [Strings.readTexts, Option.bind_eq_bind, Option.bind_eq_some_iff] at hps
    obtain ⟨text, hp, rest, hrest, htexts⟩ := hps
    obtain rfl := Option.some.inj htexts
    cases qs with
    | nil => cases hqs
    | cons q qs =>
      simp only [Strings.readTexts, Option.bind_eq_bind, Option.bind_eq_some_iff] at hqs
      obtain ⟨text', hq, rest', hrest', htexts'⟩ := hqs
      obtain ⟨rfl, rfl⟩ := List.cons.inj (Option.some.inj htexts')
      rw [h.distinct p q _ hp hq, ih hrest hrest']

/-- **When reading the slots that a walk has found gives the names.**  If they are the
slots of the names, then exactly if no text belongs to a null.  If every slot has a text
of its own, then exactly if they are those slots. -/
theorem reads_names_iff (walked : Option (List Nat)) {ks : List Nat}
    (hks : ∀ k ∈ ks, k < a.length) :
    (walked = some (ks.map a.nameSlot) →
      (walked.bind a.names.readTexts = some (ks.map fun k => (a.name k).getD "") ↔
        a.NullsEmpty ks)) ∧
    (a.Telling →
      (walked.bind a.names.readTexts = some (ks.map fun k => (a.name k).getD "") ↔
        walked = some (ks.map a.nameSlot))) := by
  have hright : walked = some (ks.map a.nameSlot) →
      (walked.bind a.names.readTexts = some (ks.map fun k => (a.name k).getD "") ↔
        a.NullsEmpty ks) := by
    rintro rfl
    rw [Option.bind_some, a.readTexts_nameSlots hks, Option.some.injEq, a.slotTexts_eq_iff]
  refine ⟨hright, fun htelling => ⟨fun h => ?_, fun h => (hright h).mpr fun k hk hnull => ?_⟩⟩
  · obtain ⟨ps, rfl, hps⟩ := Option.bind_eq_some_iff.mp h
    have hnames : ks.map (fun k => a.names.slotText (a.offset + k)) =
        ks.map (fun k => (a.name k).getD "") :=
      (a.slotTexts_eq_iff ks).mpr fun k hk hnull => absurd hnull (htelling.valid k (hks k hk))
    have hslots := a.readTexts_nameSlots hks
    rw [hnames] at hslots
    rw [htelling.slots_eq hps hslots]
  · exact absurd hnull (htelling.valid k (hks k hk))

end NamedStructs

/-! ## Laying values out -/

/-- The elements of lists, those of null lists left out. -/
def concat {α : Type} (lists : List (Option (List α))) : List α :=
  lists.flatMap fun list => list.getD []

/-- The entries of an offset buffer for stretches of these lengths. -/
def entries : Nat → List Nat → List Nat
  | start, [] => [start]
  | start, n :: ns => start :: entries (start + n) ns

theorem entries_length (start : Nat) (ns : List Nat) :
    (entries start ns).length = ns.length + 1 := by
  induction ns generalizing start with
  | nil => rfl
  | cons n ns ih => rw [entries, List.length_cons, ih, List.length_cons]

theorem entries_getD (start : Nat) {ns : List Nat} {i : Nat} (hi : i ≤ ns.length) :
    (entries start ns).getD i 0 = start + (ns.take i).sum := by
  induction ns generalizing start i with
  | nil =>
    obtain rfl : i = 0 := Nat.le_zero.mp hi
    rfl
  | cons n ns ih =>
    cases i with
    | zero => rfl
    | succ i =>
      rw [entries, List.getD_cons_succ, ih _ (Nat.le_of_succ_le_succ hi), List.take_succ_cons,
        List.sum_cons, Nat.add_assoc]

/-- The lengths of the lists, in order; a list that is null has length 0. -/
def lengths {α : Type} (lists : List (Option (List α))) : List Nat :=
  lists.map fun list => (list.getD []).length

theorem length_concat {α : Type} (lists : List (Option (List α))) :
    (concat lists).length = (lengths lists).sum := by
  rw [concat, List.length_flatMap, lengths]

/-- Lists laid out one after the other. -/
def Ranges.ofLists {α : Type} {limit : Nat} (lists : List (Option (List α)))
    (hlimit : (concat lists).length ≤ limit) : Ranges limit where
  length := lists.length
  offset := 0
  validity := some (lists.map Option.isSome)
  covered := by simp
  offsets := entries 0 (lengths lists)
  size _ := by simp [entries_length, lengths]
  sorted i hi := by
    have hlength : (lengths lists).length = lists.length := List.length_map _
    rw [Nat.zero_add, entries_getD 0 (by omega), entries_getD 0 (by omega), Nat.zero_add,
      Nat.zero_add, List.sum_take_succ _ i (by omega)]
    exact Nat.le_add_right _ _
  bounded i hi := by
    have hlength : (lengths lists).length = lists.length := List.length_map _
    rw [length_concat, ← List.sum_take_add_sum_drop (lengths lists) (i + 1)] at hlimit
    rw [Nat.zero_add, entries_getD 0 (by omega), Nat.zero_add]
    exact Nat.le_trans (Nat.le_add_right _ _) hlimit

section OfLists
variable {α β : Type} {lists : List (Option (List α))} {limit : Nat}
  (hlimit : (concat lists).length ≤ limit)

/-- Where the slot of a list starts and ends. -/
theorem entries_ofLists {i : Nat} (hi : i < lists.length) :
    (Ranges.ofLists lists hlimit).offsets.getD ((Ranges.ofLists lists hlimit).offset + i) 0 =
        ((lengths lists).take i).sum ∧
      (Ranges.ofLists lists hlimit).offsets.getD ((Ranges.ofLists lists hlimit).offset + i + 1) 0 =
        ((lengths lists).take i).sum + (lists[i].getD []).length := by
  have hlength : (lengths lists).length = lists.length := List.length_map _
  show (entries 0 (lengths lists)).getD (0 + i) 0 = _ ∧
    (entries 0 (lengths lists)).getD (0 + i + 1) 0 = _
  rw [Nat.zero_add, entries_getD 0 (by omega), entries_getD 0 (by omega),
    List.sum_take_succ _ i (by omega), Nat.zero_add, Nat.zero_add]
  simp [lengths]

theorem positions_ofLists {i : Nat} (hi : i < lists.length) :
    (Ranges.ofLists lists hlimit).positions i =
      List.range' ((lengths lists).take i).sum (lists[i].getD []).length := by
  obtain ⟨hstart, hstop⟩ := entries_ofLists hlimit hi
  rw [Ranges.positions, hstart, hstop, between, Nat.add_sub_cancel_left]

/-- One of the lists, found among all elements. -/
theorem slice_concat {i : Nat} (hi : i < lists.length) :
    ((concat lists).drop ((lengths lists).take i).sum).take (lists[i].getD []).length =
      lists[i].getD [] := by
  induction lists generalizing i with
  | nil => cases hi
  | cons list lists ih =>
    have hconcat : concat (list :: lists) = list.getD [] ++ concat lists := rfl
    have hlengths : lengths (list :: lists) = (list.getD []).length :: lengths lists := rfl
    rw [hconcat, hlengths]
    cases i with
    | zero => exact List.take_left
    | succ i =>
      rw [List.take_succ_cons, List.sum_cons, List.drop_length_add_append]
      exact ih (Nat.lt_of_succ_lt_succ hi)

/-- An element of one of the lists, found among all elements. -/
theorem getElem?_concat {i j : Nat} (hi : i < lists.length) (hj : j < (lists[i].getD []).length) :
    (concat lists)[((lengths lists).take i).sum + j]? = some (lists[i].getD [])[j] := by
  have hslice := congrArg (fun list => list[j]?) (slice_concat hi)
  simp only [List.getElem?_take_of_lt hj, List.getElem?_drop, List.getElem?_eq_getElem hj]
    at hslice
  exact hslice

theorem isValid_ofLists {i : Nat} (hi : i < lists.length) :
    (Ranges.ofLists lists hlimit).isValid i = lists[i].isSome := by
  show (lists.map Option.isSome).getD (0 + i) true = _
  rw [Nat.zero_add, List.getD_eq_getElem?_getD, List.getElem?_map, List.getElem?_eq_getElem hi,
    Option.map_some, Option.getD_some]

/-- No positions belong to a null list. -/
theorem positions_of_null {i : Nat} (hi : i < lists.length)
    (hnull : (Ranges.ofLists lists hlimit).value i = none) :
    (Ranges.ofLists lists hlimit).positions i = [] := by
  rw [Ranges.value, isValid_ofLists hlimit hi] at hnull
  rw [positions_ofLists hlimit hi]
  cases hlist : lists[i] with
  | none => rfl
  | some list =>
    rw [hlist] at hnull
    cases hnull

/-- **A list reads back**, through anything that gives for the position of an element what
`g` gives for the element. -/
theorem value_ofLists {f : Nat → β} {g : α → β}
    (hf : ∀ k a, (concat lists)[k]? = some a → f k = g a) {i : Nat} (hi : i < lists.length) :
    ((Ranges.ofLists lists hlimit).value i).map (List.map f) = lists[i].map (List.map g) := by
  rw [Ranges.value, isValid_ofLists hlimit hi]
  cases hlist : lists[i] with
  | none => rfl
  | some list =>
    rw [Option.isSome_some, if_pos rfl, Option.map_some, Option.map_some,
      positions_ofLists hlimit hi, hlist, Option.getD_some]
    refine congrArg some (List.ext_getElem (by simp) fun j hj hj' => ?_)
    rw [List.length_map] at hj'
    have helement := getElem?_concat (j := j) hi (by simpa [hlist] using hj')
    rw [List.getElem_map, List.getElem_map, List.getElem_range', Nat.one_mul]
    exact hf _ _ (helement.trans (by simp [hlist]))

end OfLists

/-- Strings laid out one after the other. -/
def Strings.ofTexts (texts : List (Option String)) : Strings where
  data := concat (texts.map (Option.map String.toList))
  ranges := .ofLists (texts.map (Option.map String.toList)) (Nat.le_refl _)

section OfNames
variable {texts : List (Option String)} {i : Nat}

/-- The text in the slot of a string, which is empty for null. -/
theorem slotText_ofTexts (hi : i < texts.length) :
    (Strings.ofTexts texts).slotText i = texts[i].getD "" := by
  have hi' : i < (texts.map (Option.map String.toList)).length := by rwa [List.length_map]
  have hslot := entries_ofLists (Nat.le_refl _) hi'
  have hstart : (Strings.ofTexts texts).ranges.offsets.getD
      ((Strings.ofTexts texts).ranges.offset + i) 0 = _ := hslot.1
  have hstop : (Strings.ofTexts texts).ranges.offsets.getD
      ((Strings.ofTexts texts).ranges.offset + i + 1) 0 = _ := hslot.2
  have hslice : ((Strings.ofTexts texts).data.drop _).take _ = _ := slice_concat hi'
  rw [Strings.slotText, hstart, hstop, Nat.add_sub_cancel_left, hslice, List.getElem_map]
  cases texts[i] with
  | none => rfl
  | some text => exact String.ofList_toList

/-- **A string reads back**: the array that is written for some texts has them as its values. -/
theorem value_ofTexts (hi : i < texts.length) : (Strings.ofTexts texts).value i = texts[i] := by
  have hi' : i < (texts.map (Option.map String.toList)).length := by rwa [List.length_map]
  have hvalid : (Strings.ofTexts texts).ranges.isValid i = texts[i].isSome := by
    refine (isValid_ofLists (Nat.le_refl _) hi').trans ?_
    rw [List.getElem_map, Option.isSome_map]
  rw [Strings.value, hvalid, slotText_ofTexts hi]
  cases texts[i] <;> rfl

/-- An array of structs with these names, written without an offset. -/
def NamedStructs.ofNames (names : List (Option String)) : NamedStructs where
  length := names.length
  offset := 0
  validity := none
  covered := nofun
  names := .ofTexts names
  namesFit := by
    rw [Nat.zero_add]
    exact Nat.le_of_eq (List.length_map _).symm

theorem name_ofNames (hi : i < texts.length) : (NamedStructs.ofNames texts).name i = texts[i] := by
  show (Strings.ofTexts texts).value (0 + i) = _
  rw [Nat.zero_add, value_ofTexts hi]

theorem nullsEmpty_ofNames {ks : List Nat} (hks : ∀ k ∈ ks, k < texts.length) :
    (NamedStructs.ofNames texts).NullsEmpty ks := by
  intro k hk hnull
  rw [name_ofNames (hks k hk)] at hnull
  show (Strings.ofTexts texts).slotText (0 + k) = ""
  rw [Nat.zero_add, slotText_ofTexts (hks k hk), hnull]
  rfl

end OfNames

end VariableLayout
