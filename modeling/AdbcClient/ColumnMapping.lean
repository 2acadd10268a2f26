import AdbcClient.PhysicalPlan
import Mathlib.Data.List.Nodup
import Mathlib.Data.List.Perm.Basic

/-!
# The columns of an insert

An `INSERT` that names columns gives `PlanInsert` a map from the columns of the table to
positions of the input (`adbc_catalog.cpp`).  The planner inverts it through an array of
`INVALID_INDEX`es and reads as many of its slots back as it has filled, so it rests on the
positions being the first ones.  `BindsColumns` is what the binder promises of the map;
with that every value is ingested under the name and type of the column it is meant for
(`planInsert_maps_columns`).
-/
namespace AdbcClient

/-- **The maps the binder builds** for an input of `k` columns: a bijection from `k` columns
of the table onto the positions of the input. -/
structure BindsColumns (columnIndexMap : List (Option Nat)) (n k : Nat) : Prop where
  length : columnIndexMap.length = n
  bounded : ∀ {c p : Nat}, columnIndexMap[c]? = some (some p) → p < k
  onto : ∀ {p : Nat}, p < k → ∃ c : Nat, columnIndexMap[c]? = some (some p)
  injective : ∀ {c c' p : Nat}, columnIndexMap[c]? = some (some p) →
    columnIndexMap[c']? = some (some p) → c = c'

/-! ## The first loop -/

/-- The positions that a map of columns uses, in the order of the columns. -/
def mappedPositions (columnIndexMap : List (Option Nat)) : List Nat := columnIndexMap.filterMap id

theorem mem_mappedPositions {columnIndexMap : List (Option Nat)} {p : Nat} :
    p ∈ mappedPositions columnIndexMap ↔ ∃ c : Nat, columnIndexMap[c]? = some (some p) := by
  rw [mappedPositions, List.mem_filterMap]
  constructor
  · rintro ⟨entry, hmem, rfl⟩
    exact List.mem_iff_getElem?.mp hmem
  · rintro ⟨c, hc⟩
    exact ⟨some p, List.mem_of_getElem? hc, rfl⟩

/-- **What the first loop does** with positions inside the array: it counts them, leaves the
other slots alone, and notes in each the column that is mapped to it. -/
theorem invertColumnMap_spec {rest : List (Option Nat)} {columnIndexes : List (Option Nat)}
    (hbounded : ∀ p ∈ mappedPositions rest, p < columnIndexes.length)
    (hnodup : (mappedPositions rest).Nodup) (c count : Nat) :
    ∃ inverted, invertColumnMap columnIndexes.length rest c columnIndexes count =
        some (inverted, count + (mappedPositions rest).length) ∧
      (∀ p, p ∉ mappedPositions rest → inverted[p]? = columnIndexes[p]?) ∧
      ∀ j p : Nat, rest[j]? = some (some p) → inverted[p]? = some (some (c + j)) := by
  induction rest generalizing columnIndexes c count with
  | nil => exact ⟨columnIndexes, rfl, fun _ _ => rfl, fun j p h => by simp at h⟩
  | cons entry rest ih =>
    cases entry with
    | none =>
      obtain ⟨inverted, he, hother, hmapped⟩ := ih hbounded hnodup (c + 1) count
      refine ⟨inverted, he, hother, fun j p hj => ?_⟩
      cases j with
      | zero => cases hj
      | succ j =>
        rw [hmapped j p hj]
        exact congrArg (fun i => some (some i)) (by omega)
    | some q =>
      have hq : q < columnIndexes.length := hbounded q List.mem_cons_self
      obtain ⟨hfirst, hrest⟩ := List.nodup_cons.mp hnodup
      have hlength : (columnIndexes.set q (some c)).length = columnIndexes.length :=
        List.length_set
      have hbounded' : ∀ p ∈ mappedPositions rest, p < (columnIndexes.set q (some c)).length := by
        intro p hp
        rw [hlength]
        exact hbounded p (List.mem_cons_of_mem q hp)
      obtain ⟨inverted, he, hother, hmapped⟩ := ih hbounded' hrest (c + 1) (count + 1)
      have hcount : count + 1 + (mappedPositions rest).length =
          count + (mappedPositions (some q :: rest)).length := by
        show _ = count + ((mappedPositions rest).length + 1)
        omega
      refine ⟨inverted, ?_, fun p hp => ?_, fun j p hj => ?_⟩
      · rw [invertColumnMap, if_pos hq, ← hcount, ← he, hlength]
      · have hne : q ≠ p := fun h => hp (h ▸ List.mem_cons_self)
        rw [hother p (fun h => hp (List.mem_cons_of_mem q h)), List.getElem?_set_ne hne]
      · cases j with
        | zero =>
          -- no later entry is mapped to the same position
          obtain rfl : q = p := by simpa using hj
          rw [hother q hfirst, List.getElem?_set_self hq]
          rfl
        | succ j =>
          rw [hmapped j p hj]
          exact congrArg (fun i => some (some i)) (by omega)

namespace BindsColumns
variable {columnIndexMap : List (Option Nat)} {n k : Nat}

/-- No position is used twice, as no two columns are bound to one. -/
theorem positions_nodup (h : BindsColumns columnIndexMap n k) :
    (mappedPositions columnIndexMap).Nodup := by
  rw [mappedPositions, List.Nodup, List.pairwise_filterMap, List.pairwise_iff_getElem]
  rintro c c' hc hc' hlt p hp q hq rfl
  have hsame : c = c' := h.injective (by rw [List.getElem?_eq_getElem hc, ← hp]; rfl)
    (by rw [List.getElem?_eq_getElem hc', ← hq]; rfl)
  omega

/-- The positions are the first ones, each once. -/
theorem positions_perm (h : BindsColumns columnIndexMap n k) :
    (mappedPositions columnIndexMap).Perm (List.range k) := by
  rw [List.perm_ext_iff_of_nodup h.positions_nodup List.nodup_range]
  intro p
  rw [mem_mappedPositions, List.mem_range]
  exact ⟨fun ⟨_, hc⟩ => h.bounded hc, h.onto⟩

theorem positions_length (h : BindsColumns columnIndexMap n k) :
    (mappedPositions columnIndexMap).length = k := by
  rw [h.positions_perm.length_eq, List.length_range]

/-- There are no more positions than columns. -/
theorem le_columns (h : BindsColumns columnIndexMap n k) : k ≤ n := by
  rw [← h.positions_length, ← h.length]
  exact List.length_filterMap_le ..

end BindsColumns

/-! ## The second loop -/

/-- Reading `k` slots that can all be read. -/
theorem mapM_range {α : Type} {read : Nat → Option α} {k : Nat}
    (h : ∀ p, p < k → ∃ a, read p = some a) :
    ∃ found, (List.range k).mapM read = some found ∧ found.length = k ∧
      ∀ p, p < k → found[p]? = read p := by
  induction k with
  | zero => exact ⟨[], rfl, rfl, fun p hp => absurd hp (Nat.not_lt_zero p)⟩
  | succ k ih =>
    obtain ⟨found, hfound, hlength, hread⟩ := ih fun p hp => h p (Nat.lt_succ_of_lt hp)
    obtain ⟨a, ha⟩ := h k (Nat.lt_succ_self k)
    refine ⟨found ++ [a], ?_, ?_, fun p hp => ?_⟩
    · rw [List.range_succ, List.mapM_append, hfound, List.mapM_cons, ha]
      rfl
    · rw [List.length_append, hlength, List.length_singleton]
    · rcases Nat.lt_succ_iff_lt_or_eq.mp hp with hlt | rfl
      · rw [List.getElem?_append_left (by rw [hlength]; exact hlt), hread p hlt]
      · rw [← hlength, List.getElem?_concat_length, hlength, ha]

/-- **The columns of an insert**: at each position the column that is mapped to it, and no
others. -/
structure Remapped (columns : List ColumnDefinition) (columnIndexMap : List (Option Nat))
    (k : Nat) (found : List ColumnDefinition) : Prop where
  count : found.length = k
  mapped : ∀ {c p : Nat}, columnIndexMap[c]? = some (some p) → found[p]? = columns[c]?
  only : ∀ {p : Nat}, p < k → ∃ c : Nat, columnIndexMap[c]? = some (some p)
  /-- No slot that is read holds an `INVALID_INDEX`. -/
  valid : ∃ inverted, invertColumnMap columns.length columnIndexMap 0
      (List.replicate columns.length none) 0 = some (inverted, k) ∧
    ∀ p < k, ∃ c : Nat, inverted[p]? = some (some c) ∧ c < columns.length

/-- **What the planner reads back** under a map of the binder. -/
theorem remapColumns_spec {columns : List ColumnDefinition} {columnIndexMap : List (Option Nat)}
    {k : Nat} (h : BindsColumns columnIndexMap columns.length k) (hne : columnIndexMap ≠ []) :
    ∃ found, remapColumns columns columnIndexMap = some found ∧
      Remapped columns columnIndexMap k found := by
  have hbounded : ∀ p ∈ mappedPositions columnIndexMap,
      p < (List.replicate columns.length (none : Option Nat)).length := by
    intro p hp
    obtain ⟨c, hc⟩ := mem_mappedPositions.mp hp
    rw [List.length_replicate]
    exact Nat.lt_of_lt_of_le (h.bounded hc) h.le_columns
  obtain ⟨inverted, he, _, hmapped⟩ := invertColumnMap_spec hbounded h.positions_nodup 0 0
  rw [List.length_replicate, h.positions_length, Nat.zero_add] at he
  have hslot : ∀ c p : Nat, columnIndexMap[c]? = some (some p) →
      inverted[p]? = some (some c) ∧ c < columns.length := by
    intro c p hc
    refine ⟨by rw [hmapped c p hc, Nat.zero_add], ?_⟩
    rw [← h.length]
    exact (List.getElem?_eq_some_iff.mp hc).1
  have hread : ∀ c p : Nat, columnIndexMap[c]? = some (some p) →
      getColumn columns inverted p = columns[c]? := by
    intro c p hc
    simp only [getColumn, (hslot c p hc).1, Option.bind_eq_bind, Option.bind_some]
  have hreads : ∀ p, p < k → ∃ column, getColumn columns inverted p = some column := by
    intro p hp
    obtain ⟨c, hc⟩ := h.onto hp
    rw [hread c p hc]
    exact ⟨_, List.getElem?_eq_getElem (hslot c p hc).2⟩
  obtain ⟨found, hfound, hcount, hat⟩ := mapM_range hreads
  refine ⟨found, ?_, hcount, fun {c p} hc => ?_, h.onto, inverted, he, fun p hp => ?_⟩
  · have hempty : columnIndexMap.isEmpty = false := by
      rw [List.isEmpty_eq_false_iff]
      exact hne
    rw [remapColumns, hempty, if_neg Bool.false_ne_true, he]
    exact hfound
  · rw [hat p (h.bounded hc), hread c p hc]
  · obtain ⟨c, hc⟩ := h.onto hp
    exact ⟨c, hslot c p hc⟩

/-! ## The operator -/

/-- The schema of the stream that `CreateArrowStreamFromCollection` makes of the input. -/
def AdbcInsert.streamSchema (insert : AdbcInsert) : List ColumnDefinition :=
  List.zipWith ColumnDefinition.mk insert.columnNames insert.columnTypes

theorem zipWith_columns (columns : List ColumnDefinition) :
    List.zipWith ColumnDefinition.mk (columns.map ColumnDefinition.name)
      (columns.map ColumnDefinition.type) = columns := by
  induction columns with
  | nil => rfl
  | cons column columns ih => rw [List.map_cons, List.map_cons, List.zipWith_cons_cons, ih]

/-- **The columns an insert ingests**: `k` of them, all in table order without a map, and
with one at each position the column that is mapped to it. -/
structure IngestsColumns (op : LogicalInsert) (k : Nat) (insert : AdbcInsert) : Prop where
  namesCount : insert.columnNames.length = k
  typesCount : insert.columnTypes.length = k
  all : op.columnIndexMap = [] →
    insert.columnNames = op.table.columns.map ColumnDefinition.name ∧
      insert.columnTypes = op.table.columns.map ColumnDefinition.type
  mapped : ∀ {c p : Nat} {column : ColumnDefinition}, op.columnIndexMap[c]? = some (some p) →
    op.table.columns[c]? = some column →
      insert.columnNames[p]? = some column.name ∧ insert.columnTypes[p]? = some column.type
  stream : ∀ {c p : Nat}, op.columnIndexMap[c]? = some (some p) →
    insert.streamSchema[p]? = op.table.columns[c]?
  only : op.columnIndexMap ≠ [] → ∀ p < k, ∃ (c : Nat) (column : ColumnDefinition),
    op.columnIndexMap[c]? = some (some p) ∧ op.table.columns[c]? = some column
  /-- The planner reads slots with columns of the table, and none with an `INVALID_INDEX`. -/
  valid : op.columnIndexMap ≠ [] → ∃ inverted,
    invertColumnMap op.table.columns.length op.columnIndexMap 0
        (List.replicate op.table.columns.length none) 0 = some (inverted, k) ∧
      ∀ p < k, ∃ c : Nat, inverted[p]? = some (some c) ∧ c < op.table.columns.length

/-- An insert of the columns the planner has read back. -/
theorem IngestsColumns.of_remapped {op : LogicalInsert} {k : Nat} {found : List ColumnDefinition}
    (h : Remapped op.table.columns op.columnIndexMap k found) (hne : op.columnIndexMap ≠ [])
    (tableName internalSchema : String) (mode : InsertMode) :
    IngestsColumns op k ⟨found.map ColumnDefinition.type, found.map ColumnDefinition.name,
      tableName, internalSchema, mode⟩ where
  namesCount := by rw [List.length_map, h.count]
  typesCount := by rw [List.length_map, h.count]
  all hempty := absurd hempty hne
  mapped hc hcolumn := by
    have hfound := (h.mapped hc).trans hcolumn
    simp only [List.getElem?_map, hfound, Option.map_some, and_self]
  stream hc := by
    rw [AdbcInsert.streamSchema, zipWith_columns]
    exact h.mapped hc
  only _ p hp := by
    obtain ⟨inverted, _, hvalid⟩ := h.valid
    obtain ⟨c, hc⟩ := h.only hp
    have hlt : p < found.length := by rw [h.count]; exact hp
    have hfound := h.mapped hc
    rw [List.getElem?_eq_getElem hlt] at hfound
    exact ⟨c, _, hc, hfound.symm⟩
  valid _ := h.valid

/-- An insert of all columns, for which the plan has no map. -/
theorem IngestsColumns.of_all {op : LogicalInsert} (hempty : op.columnIndexMap = [])
    (tableName internalSchema : String) (mode : InsertMode) :
    IngestsColumns op op.table.columns.length
      ⟨op.table.columns.map ColumnDefinition.type, op.table.columns.map ColumnDefinition.name,
        tableName, internalSchema, mode⟩ where
  namesCount := List.length_map _
  typesCount := List.length_map _
  all _ := ⟨rfl, rfl⟩
  mapped hc := by
    rw [hempty] at hc
    cases hc
  stream hc := by
    rw [hempty] at hc
    cases hc
  only hne := absurd hempty hne
  valid hne := absurd hempty hne

/-- **Every value is ingested under the name and type of its column.**  For every map from columns
to values that the binder builds, and for the statements that the planner accepts, the plan is an
insert whose columns are named and typed like the columns that the values are for. -/
theorem planInsert_maps_columns (canMixReadsWrites noSchemas : Bool) (op : LogicalInsert)
    (plan : PhysicalOperator) (k : Nat) (hreturning : op.returnChunk = false)
    (hconflict : op.onConflict = .throw)
    (hreads : containsAdbcReads plan = true → canMixReadsWrites = true)
    (hmap : (op.columnIndexMap = [] ∧ k = op.table.columns.length) ∨
      BindsColumns op.columnIndexMap op.table.columns.length k) :
    ∃ insert, planInsert canMixReadsWrites noSchemas op plan =
        .ok (.mk (.adbcInsert insert) [plan] []) ∧ IngestsColumns op k insert := by
  have hguards : planInsert canMixReadsWrites noSchemas op plan =
      (remapColumns op.table.columns op.columnIndexMap).elim (.error .internal) fun columns =>
        .ok (makeInsert columns op.table.name (getInternalSchemaName noSchemas op.schema)
          .append plan) := by
    have hmixing : (containsAdbcReads plan && !canMixReadsWrites) = false := by
      cases hr : containsAdbcReads plan with
      | false => rfl
      | true => rw [hreads hr]; rfl
    rw [planInsert, hreturning, if_neg Bool.false_ne_true, if_neg (fun h => h hconflict),
      hmixing]
    cases remapColumns op.table.columns op.columnIndexMap <;> rfl
  by_cases hempty : op.columnIndexMap = []
  · have hk : k = op.table.columns.length := by
      rcases hmap with ⟨_, hk⟩ | hbinds
      · exact hk
      · -- the map of a table without columns is empty too
        have hlength := hbinds.length
        have hle := hbinds.le_columns
        rw [hempty, List.length_nil] at hlength
        omega
    have hall : remapColumns op.table.columns op.columnIndexMap = some op.table.columns := by
      rw [remapColumns, hempty, List.isEmpty_nil, if_pos rfl]
    rw [hguards, hall, hk]
    exact ⟨_, rfl, .of_all hempty _ _ _⟩
  · have hbinds := hmap.resolve_left (fun h => hempty h.1)
    obtain ⟨found, hfound, hremapped⟩ := remapColumns_spec hbinds hempty
    rw [hguards, hfound]
    exact ⟨_, rfl, .of_remapped hremapped hempty _ _ _⟩

/-- `INSERT INTO t (c, a)`, into a table with the columns `a`, `b` and `c`: the insert has the
columns `c` and `a`, in this order. -/
theorem insert_two_of_three :
    ∃ insert, planInsert false false
        ⟨false, .throw, "main", ⟨"t", [⟨"a", ⟨"INTEGER"⟩⟩, ⟨"b", ⟨"DATE"⟩⟩, ⟨"c", ⟨"VARCHAR"⟩⟩]⟩,
          [some 1, none, some 0]⟩ (.mk (.other "PROJECTION") [] []) =
        .ok (.mk (.adbcInsert insert) [.mk (.other "PROJECTION") [] []] []) ∧
      IngestsColumns
        ⟨false, .throw, "main", ⟨"t", [⟨"a", ⟨"INTEGER"⟩⟩, ⟨"b", ⟨"DATE"⟩⟩, ⟨"c", ⟨"VARCHAR"⟩⟩]⟩,
          [some 1, none, some 0]⟩ 2 insert := by
  refine planInsert_maps_columns false false _ _ 2 rfl rfl (by decide) (.inr ⟨rfl, ?_, ?_, ?_⟩)
  · rintro (_ | _ | _ | c) p hc
    · obtain rfl : 1 = p := by simpa using hc
      decide
    · simp at hc
    · obtain rfl : 0 = p := by simpa using hc
      decide
    · simp at hc
  · intro p hp
    obtain rfl | rfl : p = 0 ∨ p = 1 := by omega
    · exact ⟨2, rfl⟩
    · exact ⟨0, rfl⟩
  · rintro (_ | _ | _ | c) (_ | _ | _ | c') p hc hc' <;> simp at hc hc' ⊢ <;> omega

end AdbcClient
