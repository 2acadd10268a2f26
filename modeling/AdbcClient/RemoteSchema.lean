import AdbcClient.QueryText
import Mathlib.Data.List.Pairwise
import Mathlib.Data.List.Nodup

/-!
# The tables of a remote schema

What the extension relies on in the database behind the driver.  A remote schema
is a set of tables (`RemoteSchema`); whether two spellings name one table is for
the remote to say (`caseSensitive`): it compares names as they are, or without regard
to the case of ASCII letters, which is also all that DuckDB's maps fold.  No two of its tables have the same name
by that comparison.  `resolve` is the table a spelling stands for there, `names`
is what a metadata request lists, and `create` is an ingest in create mode, which
fails on a table that exists.
-/
namespace AdbcClient

/-- A DuckDB type, by its SQL name. -/
structure LogicalType where
  sqlName : String
  deriving DecidableEq, Repr

/-- `ColumnDefinition`. -/
structure ColumnDefinition where
  name : String
  type : LogicalType
  deriving DecidableEq, Repr

/-- A table of the remote, by the name that it was created with. -/
structure RemoteTable where
  name : String
  columns : List ColumnDefinition
  deriving DecidableEq, Repr

/-- Whether two spellings are one name: the same text, or the same up to the case of the ASCII
letters. -/
def sameName (caseSensitive : Bool) (a b : String) : Bool :=
  if caseSensitive then a == b else lower a == lower b

theorem sameName_refl (cs : Bool) (a : String) : sameName cs a a = true := by
  cases cs <;> simp [sameName]

theorem sameName_comm (cs : Bool) (a b : String) : sameName cs a b = sameName cs b a := by
  cases cs with
  | false => exact BEq.comm
  | true => exact BEq.comm

theorem sameName_trans {cs : Bool} {a b c : String} (hab : sameName cs a b = true)
    (hbc : sameName cs b c = true) : sameName cs a c = true := by
  cases cs <;> simp_all [sameName]

theorem lower_eq_of_sameName {cs : Bool} {a b : String} (h : sameName cs a b = true) :
    lower a = lower b := by
  cases cs with
  | false => simpa [sameName] using h
  | true => rw [show a = b by simpa [sameName] using h]

/-- A remote schema: its tables, no two of which have one name by its own comparison. -/
structure RemoteSchema where
  caseSensitive : Bool
  tables : List RemoteTable
  distinct : tables.Pairwise (fun t u => sameName caseSensitive t.name u.name = false)

namespace RemoteSchema
variable (R : RemoteSchema)

/-- The table that a spelling stands for at the remote, if there is one. -/
def resolve (n : String) : Option RemoteTable :=
  R.tables.find? (fun t => sameName R.caseSensitive t.name n)

/-- The names that a metadata request lists, as the tables were created. -/
def names : List String := R.tables.map RemoteTable.name

/-- Binding `SELECT * FROM` a table gives its columns; without the table it throws. -/
def bind (n : String) : Option (List ColumnDefinition) := (R.resolve n).map RemoteTable.columns

/-- An ingest in create mode, which adds the table, or fails if there is one with its name. -/
def create (t : RemoteTable) : Option RemoteSchema :=
  if h : R.resolve t.name = none then
    some { R with
      tables := R.tables ++ [t]
      distinct := List.pairwise_append.mpr ⟨R.distinct, List.pairwise_singleton _ _, by
        intro u hu v hv
        obtain rfl := List.mem_singleton.mp hv
        simpa using List.find?_eq_none.mp h u hu⟩ }
  else none

variable {R}

theorem mem_names {t : RemoteTable} (ht : t ∈ R.tables) : t.name ∈ R.names :=
  List.mem_map.mpr ⟨t, ht, rfl⟩

theorem mem_of_resolve {n : String} {t : RemoteTable} (h : R.resolve n = some t) :
    t ∈ R.tables := List.mem_of_find?_eq_some h

theorem sameName_of_resolve {n : String} {t : RemoteTable} (h : R.resolve n = some t) :
    sameName R.caseSensitive t.name n = true := by
  simpa using List.find?_some h

/-- Two tables with the same name are one. -/
theorem eq_of_sameName {t u : RemoteTable} (ht : t ∈ R.tables) (hu : u ∈ R.tables)
    (h : sameName R.caseSensitive t.name u.name = true) : t = u := by
  by_contra hne
  have hsymm : ∀ a b : RemoteTable, sameName R.caseSensitive a.name b.name = false →
      sameName R.caseSensitive b.name a.name = false := fun a b h => by rw [sameName_comm, h]
  have : Std.Symm (fun a b : RemoteTable => sameName R.caseSensitive a.name b.name = false) :=
    ⟨hsymm⟩
  rw [R.distinct.forall ht hu hne] at h
  cases h

theorem resolve_iff {n : String} {t : RemoteTable} :
    R.resolve n = some t ↔ t ∈ R.tables ∧ sameName R.caseSensitive t.name n = true := by
  constructor
  · exact fun h => ⟨mem_of_resolve h, sameName_of_resolve h⟩
  · rintro ⟨ht, hn⟩
    cases hr : R.resolve n with
    | none =>
      have := List.find?_eq_none.mp hr t ht
      simp [hn] at this
    | some u =>
      have hu := sameName_of_resolve hr
      rw [sameName_comm] at hu
      rw [eq_of_sameName ht (mem_of_resolve hr) (sameName_trans hn hu)]

theorem resolve_isSome_iff {n : String} :
    (R.resolve n).isSome ↔ ∃ m ∈ R.names, sameName R.caseSensitive m n = true := by
  simp [resolve, names, List.find?_isSome]

theorem resolve_name {t : RemoteTable} (ht : t ∈ R.tables) : R.resolve t.name = some t :=
  resolve_iff.mpr ⟨ht, sameName_refl ..⟩

theorem resolve_congr {a b : String} (h : sameName R.caseSensitive a b = true) :
    R.resolve a = R.resolve b := by
  have hab : ∀ t, R.resolve a = some t ↔ R.resolve b = some t := by
    intro t
    rw [resolve_iff, resolve_iff]
    exact ⟨fun ⟨ht, hn⟩ => ⟨ht, sameName_trans hn h⟩,
      fun ⟨ht, hn⟩ => ⟨ht, sameName_trans hn (by rw [sameName_comm, h])⟩⟩
  exact Option.ext hab

/-- Two spellings of one table are one name. -/
theorem sameName_of_resolve_eq {m n : String} {t : RemoteTable} (hm : R.resolve m = some t)
    (hn : R.resolve n = some t) : sameName R.caseSensitive m n = true := by
  have hmt := sameName_of_resolve hm
  rw [sameName_comm] at hmt
  exact sameName_trans hmt (sameName_of_resolve hn)

theorem lower_resolve {n : String} {t : RemoteTable} (h : R.resolve n = some t) :
    lower t.name = lower n := lower_eq_of_sameName (sameName_of_resolve h)

theorem bind_isSome_iff {n : String} : (R.bind n).isSome ↔ (R.resolve n).isSome := by
  simp [bind]

theorem tables_nodup : R.tables.Nodup := by
  apply R.distinct.imp
  rintro t u h rfl
  rw [sameName_refl] at h
  cases h

/-- **What creating a table does** if the remote accepts it. -/
theorem create_cases {R' : RemoteSchema} {t : RemoteTable} (h : R.create t = some R') :
    R.resolve t.name = none ∧ R'.caseSensitive = R.caseSensitive ∧
      R'.tables = R.tables ++ [t] := by
  rw [create] at h
  split at h
  · obtain rfl := Option.some.inj h
    exact ⟨‹_›, rfl, rfl⟩
  · cases h

theorem mem_names_create {R' : RemoteSchema} {t : RemoteTable} (h : R.create t = some R')
    {m : String} : m ∈ R'.names ↔ m ∈ R.names ∨ m = t.name := by
  obtain ⟨-, -, htables⟩ := create_cases h
  rw [names, names, htables, List.map_append, List.map_singleton, List.mem_append,
    List.mem_singleton]

/-- A table keeps its name when another is created. -/
theorem resolve_create {R' : RemoteSchema} {t u : RemoteTable} {n : String}
    (h : R.create t = some R') (hn : R.resolve n = some u) : R'.resolve n = some u := by
  obtain ⟨-, hcs, htables⟩ := create_cases h
  rw [resolve_iff] at hn ⊢
  exact ⟨by simp [htables, hn.1], by rw [hcs]; exact hn.2⟩

theorem resolve_created {R' : RemoteSchema} {t : RemoteTable} (h : R.create t = some R') :
    R'.resolve t.name = some t := by
  obtain ⟨-, hcs, htables⟩ := create_cases h
  exact resolve_iff.mpr ⟨by simp [htables], sameName_refl ..⟩

variable (R)

/-- No table's name differs from `n` in nothing but case, unless the remote takes
the two for one name. -/
def Unambiguous (n : String) : Prop :=
  ∀ m ∈ R.names, lower m = lower n → sameName R.caseSensitive m n = true

/-- No two names differ only in case. -/
def NoClash : Prop := ∀ m ∈ R.names, R.Unambiguous m

/-- Every spelling of `n` is `n` to the remote. -/
def AnyCase (n : String) : Prop :=
  ∀ m, lower m = lower n → sameName R.caseSensitive m n = true

instance (n : String) : Decidable (R.Unambiguous n) :=
  inferInstanceAs (Decidable (∀ m ∈ R.names, _ → _))

instance : Decidable R.NoClash := inferInstanceAs (Decidable (∀ m ∈ R.names, R.Unambiguous m))

variable {R}

theorem AnyCase.unambiguous {n : String} (h : R.AnyCase n) : R.Unambiguous n :=
  fun m _ hm => h m hm

theorem AnyCase.congr {m n : String} (h : R.AnyCase n) (hl : lower m = lower n) :
    R.AnyCase m := by
  intro k hk
  have hmn := h m hl
  rw [sameName_comm] at hmn
  exact sameName_trans (h k (hk.trans hl)) hmn

/-- A remote that is not case-sensitive takes every spelling. -/
theorem anyCase_of_caseInsensitive (h : R.caseSensitive = false) (n : String) : R.AnyCase n := by
  intro m hm
  rw [h, sameName, if_neg Bool.false_ne_true, hm]
  exact beq_self_eq_true _

/-- Names equal up to case are one table's, if one of them is unambiguous. -/
theorem resolve_eq_of_lower {m n : String} {t : RemoteTable} (hn : R.Unambiguous n)
    (hm : R.resolve m = some t) (hl : lower m = lower n) : R.resolve n = some t := by
  have ht := mem_of_resolve hm
  exact resolve_iff.mpr ⟨ht, hn t.name (mem_names ht)
    ((lower_resolve hm).trans hl)⟩

theorem NoClash.eq_of_lower (h : R.NoClash) {t u : RemoteTable} (ht : t ∈ R.tables)
    (hu : u ∈ R.tables) (hl : lower t.name = lower u.name) : t = u :=
  eq_of_sameName ht hu (h u.name (mem_names hu) t.name (mem_names ht) hl)

end RemoteSchema

end AdbcClient
