import AdbcClient.VariableLayout
import Mathlib.Data.Rat.Floor

/-!
# The layout of statistics

A batch of a `GetStatistics` answer, laid out as the Arrow C data interface and the schema in
`adbc.h` allow: catalogs with lists of schemas, schemas with lists of statistics, and in each
statistic a dense union of values.  `StatisticsBatch.rows` is what such a batch means, and
`toArrow` the arrays that a reader is given.
-/
namespace AdbcClient
open VariableLayout

/-- A `double`: a finite value, an infinity, or no number. -/
inductive Double where
  | finite (value : ℚ)
  | nan
  | infinity
  | negInfinity
  deriving DecidableEq, Repr

/-- `ArrowArray`, with the buffers of the layouts that statistics use.  `none` is a null
pointer. -/
structure StatisticsArray where
  length : Nat
  offset : Nat
  /-- `buffers[0]` of an array that may have nulls: the validity bitmap, or a null pointer. -/
  validity : Option (List Bool) := none
  /-- `buffers[0]` of a dense union: for each slot the code of its member. -/
  typeIds : Option (List Int) := none
  /-- `buffers[1]` of a dense union or a list. -/
  offsets : Option (List Int) := none
  /-- `buffers[1]` of an array of 16-bit integers: their values. -/
  int16s : Option (List Int) := none
  /-- `buffers[1]` of an array of doubles: their values. -/
  doubles : Option (List Double) := none
  children : List (Option StatisticsArray) := []

/-- Values of one width.  Without values there may be no buffer. -/
structure FixedWidth (α : Type) where
  length : Nat
  offset : Nat
  buffer : Option (List α)
  size : length ≠ 0 → offset + length ≤ (buffer.getD []).length

/-- The value of a slot of the array, unless the slot is null. -/
def FixedWidth.value {α : Type} (a : FixedWidth α) (i : Nat) : Option α :=
  if i < a.length then (a.buffer.getD [])[a.offset + i]? else none

/-- A value of the union `VALUE_SCHEMA`, by the member that it is of. -/
inductive StatisticValue where
  | int64 (value : Int)
  | uint64 (value : Nat)
  | float64 (value : Double)
  | binary
  deriving DecidableEq, Repr

/-- The arrays of a dense union, whose slots say which member holds a value, and where. -/
structure UnionArrays where
  length : Nat
  offset : Nat
  typeIds : List Int
  offsets : List Int
  int64s : FixedWidth Int
  uint64s : FixedWidth Nat
  float64s : FixedWidth Double
  binaries : StatisticsArray

/-- The value of a slot of the union: that of the member which the type id names, at the offset of
the slot. -/
def UnionArrays.value (a : UnionArrays) (i : Nat) : Option StatisticValue := do
  let typeId ← a.typeIds[a.offset + i]?
  let position ← a.offsets[a.offset + i]?
  if position < 0 then none
  else
    match typeId with
    | 0 => (a.int64s.value position.toNat).map .int64
    | 1 => (a.uint64s.value position.toNat).map .uint64
    | 2 => (a.float64s.value position.toNat).map .float64
    | 3 => some .binary
    | _ => none

/-- `VALUE_SCHEMA`. -/
structure StatisticValues extends UnionArrays where
  defined : ∀ i < length, (toUnionArrays.value i).isSome

/-- A statistic.  Without a column name it is one of the table. -/
structure Statistic where
  tableName : Option String
  columnName : Option String
  key : Int
  value : StatisticValue
  deriving DecidableEq, Repr

/-- `STATISTICS_SCHEMA`. -/
structure StatisticsStructs extends Header where
  tableNames : Strings
  columnNames : Strings
  keys : FixedWidth Int
  values : StatisticValues
  otherFields : List StatisticsArray
  tableNamesFit : offset + length ≤ tableNames.ranges.length
  columnNamesFit : offset + length ≤ columnNames.ranges.length
  keysFit : offset + length ≤ keys.length
  valuesFit : offset + length ≤ values.length

/-- `list<STATISTICS_SCHEMA>`. -/
structure StatisticsLists where
  statistics : StatisticsStructs
  ranges : Ranges statistics.length

/-- `DB_SCHEMA_SCHEMA`. -/
structure SchemaStatistics extends NamedStructs where
  lists : StatisticsLists
  listsFit : offset + length ≤ lists.ranges.length

/-- `list<DB_SCHEMA_SCHEMA>`. -/
structure SchemaStatisticsLists where
  schemas : SchemaStatistics
  ranges : Ranges schemas.length

/-- The result of `AdbcConnectionGetStatistics`: one array, from the catalogs down to the values. -/
structure StatisticsBatch extends NamedStructs where
  schemaLists : SchemaStatisticsLists
  schemasFit : offset + length ≤ schemaLists.ranges.length

/-! ## What a batch means -/

def StatisticsStructs.statistic (a : StatisticsStructs) (m : Nat) : Option Statistic :=
  if a.isValid m then do
    let key ← a.keys.value (a.offset + m)
    let value ← a.values.value (a.offset + m)
    return ⟨a.tableNames.value (a.offset + m), a.columnNames.value (a.offset + m), key, value⟩
  else none

/-- The statistics of a schema, in the order in which the batch has them. -/
def SchemaStatistics.statisticsOf (a : SchemaStatistics) (k : Nat) : List Statistic :=
  if a.isValid k then
    ((a.lists.ranges.value (a.offset + k)).getD []).filterMap a.lists.statistics.statistic
  else []

/-- A statistic, with the names of its schema and catalog. -/
structure StatisticRow where
  catalogName : Option String
  schemaName : Option String
  statistic : Statistic
  deriving DecidableEq, Repr

namespace StatisticsBatch
variable (b : StatisticsBatch)

abbrev schemas : SchemaStatistics := b.schemaLists.schemas

abbrev statistics : StatisticsStructs := b.schemas.lists.statistics

/-- The schemas of a catalog, as positions in the array of schemas. -/
def schemasAt (i : Nat) : List Nat :=
  if b.isValid i then (b.schemaLists.ranges.value (b.offset + i)).getD [] else []

/-- The statistics of a batch, in order. -/
def rows : List StatisticRow :=
  (List.range b.length).flatMap fun i => (b.schemasAt i).flatMap fun k =>
    (b.schemas.statisticsOf k).map fun s => ⟨b.name i, b.schemas.name k, s⟩

end StatisticsBatch

/-! ## Batches in memory -/

/-- Only the header of an array is looked at. -/
def headerArray (a : Header) : StatisticsArray where
  length := a.length
  offset := a.offset
  validity := a.validity

def UnionArrays.toArrow (a : UnionArrays) : StatisticsArray where
  length := a.length
  offset := a.offset
  typeIds := some a.typeIds
  offsets := some a.offsets
  children :=
    [some { length := a.int64s.length, offset := a.int64s.offset },
      some { length := a.uint64s.length, offset := a.uint64s.offset },
      some
        { length := a.float64s.length
          offset := a.float64s.offset
          doubles := a.float64s.buffer },
      some a.binaries]

def StatisticsStructs.toArrow (a : StatisticsStructs) : StatisticsArray :=
  { headerArray a.toHeader with
    children :=
      [some (headerArray a.tableNames.ranges.toHeader),
        some (headerArray a.columnNames.ranges.toHeader),
        some { length := a.keys.length, offset := a.keys.offset, int16s := a.keys.buffer },
        some a.values.toArrow] ++ a.otherFields.map some }

def StatisticsLists.toArrow (a : StatisticsLists) : StatisticsArray :=
  { headerArray a.ranges.toHeader with
    offsets := some (a.ranges.offsets.map fun n : Nat => (n : Int))
    children := [some a.statistics.toArrow] }

def SchemaStatistics.toArrow (a : SchemaStatistics) : StatisticsArray :=
  { headerArray a.toHeader with
    children := [some (headerArray a.names.ranges.toHeader), some a.lists.toArrow] }

def SchemaStatisticsLists.toArrow (a : SchemaStatisticsLists) : StatisticsArray :=
  { headerArray a.ranges.toHeader with
    offsets := some (a.ranges.offsets.map fun n : Nat => (n : Int))
    children := [some a.schemas.toArrow] }

def StatisticsBatch.toArrow (b : StatisticsBatch) : StatisticsArray :=
  { headerArray b.toHeader with
    children := [some (headerArray b.names.ranges.toHeader), some b.schemaLists.toArrow] }

/-! ## Laying statistics out -/

/-- The statistics of a schema as they are written into a batch: its name, and the rows of its list.
-/
structure SchemaStatisticsValue where
  name : Option String
  statistics : List Statistic

/-- The statistics of a catalog as they are written into a batch: its name, and its schemas. -/
structure CatalogStatisticsValue where
  name : Option String
  schemas : List SchemaStatisticsValue

/-- The rows of the statistics of some catalogs, in the order of catalogs and schemas. -/
def statisticsIn (catalogs : List CatalogStatisticsValue) : List StatisticRow :=
  catalogs.flatMap fun c => c.schemas.flatMap fun s => s.statistics.map fun t => ⟨c.name, s.name, t⟩

/-- The type id of a value's member. -/
def StatisticValue.typeId : StatisticValue → Int
  | .int64 _ => 0
  | .uint64 _ => 1
  | .float64 _ => 2
  | .binary => 3

/-- A member of a union in which it has a slot for every value, whoever holds it. -/
def FixedWidth.ofValues {α : Type} (values : List α) : FixedWidth α where
  length := values.length
  offset := 0
  buffer := some values
  size _ := by simp

theorem FixedWidth.value_ofValues {α : Type} {values : List α} {i : Nat} (hi : i < values.length) :
    (ofValues values).value i = some values[i] := by
  rw [value]
  exact (if_pos hi).trans (by simp [ofValues, hi])

/-- Values laid out one after the other. -/
def UnionArrays.ofValues (values : List StatisticValue) : UnionArrays where
  length := values.length
  offset := 0
  typeIds := values.map StatisticValue.typeId
  offsets := (List.range values.length).map fun n : Nat => (n : Int)
  int64s := .ofValues (values.map fun | .int64 n => n | _ => 0)
  uint64s := .ofValues (values.map fun | .uint64 n => n | _ => 0)
  float64s := .ofValues (values.map fun | .float64 d => d | _ => .nan)
  binaries := { length := values.length, offset := 0 }

theorem UnionArrays.value_ofValues {values : List StatisticValue} {i : Nat}
    (hi : i < values.length) : (ofValues values).value i = some values[i] := by
  have htype : (ofValues values).typeIds[(ofValues values).offset + i]? =
      some values[i].typeId := by
    simp [ofValues, hi]
  have hposition : (ofValues values).offsets[(ofValues values).offset + i]? = some (i : Int) := by
    simp [ofValues, hi]
  have hint : (ofValues values).int64s.value i = _ :=
    FixedWidth.value_ofValues (by simpa using hi)
  have huint : (ofValues values).uint64s.value i = _ :=
    FixedWidth.value_ofValues (by simpa using hi)
  have hfloat : (ofValues values).float64s.value i = _ :=
    FixedWidth.value_ofValues (by simpa using hi)
  rw [value, htype, hposition]
  simp only [Option.bind_eq_bind, Option.bind_some, Int.toNat_natCast, hint, huint, hfloat,
    List.getElem_map]
  rw [if_neg (by omega)]
  cases values[i] <;> rfl

/-- Statistics laid out one after the other. -/
def StatisticsStructs.ofStatistics (statistics : List Statistic) : StatisticsStructs where
  length := statistics.length
  offset := 0
  validity := none
  covered := nofun
  tableNames := .ofTexts (statistics.map Statistic.tableName)
  columnNames := .ofTexts (statistics.map Statistic.columnName)
  keys := .ofValues (statistics.map Statistic.key)
  values :=
    { UnionArrays.ofValues (statistics.map Statistic.value) with
      defined := fun i hi => by
        show ((UnionArrays.ofValues _).value i).isSome
        rw [UnionArrays.value_ofValues hi]
        rfl }
  otherFields := []
  tableNamesFit := by
    show 0 + _ ≤ ((statistics.map Statistic.tableName).map _).length
    simp
  columnNamesFit := by
    show 0 + _ ≤ ((statistics.map Statistic.columnName).map _).length
    simp
  keysFit := by
    show 0 + _ ≤ (statistics.map Statistic.key).length
    simp
  valuesFit := by
    show 0 + _ ≤ (statistics.map Statistic.value).length
    simp

theorem StatisticsStructs.statistic_ofStatistics {statistics : List Statistic} {m : Nat}
    (hm : m < statistics.length) :
    (ofStatistics statistics).statistic m = some statistics[m] := by
  have htable : (Strings.ofTexts (statistics.map Statistic.tableName)).value m = _ :=
    value_ofTexts (by simpa using hm)
  have hcolumn : (Strings.ofTexts (statistics.map Statistic.columnName)).value m = _ :=
    value_ofTexts (by simpa using hm)
  have hkey : (FixedWidth.ofValues (statistics.map Statistic.key)).value m = _ :=
    FixedWidth.value_ofValues (by simpa using hm)
  have hvalue : (UnionArrays.ofValues (statistics.map Statistic.value)).value m = _ :=
    UnionArrays.value_ofValues (by simpa using hm)
  have hread : (ofStatistics statistics).statistic m = (do
      let key ← (FixedWidth.ofValues (statistics.map Statistic.key)).value (0 + m)
      let value ← (UnionArrays.ofValues (statistics.map Statistic.value)).value (0 + m)
      return ⟨(Strings.ofTexts (statistics.map Statistic.tableName)).value (0 + m),
        (Strings.ofTexts (statistics.map Statistic.columnName)).value (0 + m), key, value⟩) := rfl
  rw [hread, Nat.zero_add, htable, hcolumn, hkey, hvalue]
  simp

/-- Schemas laid out one after the other. -/
def SchemaStatistics.ofSchemas (schemas : List SchemaStatisticsValue) : SchemaStatistics where
  toNamedStructs := .ofNames (schemas.map SchemaStatisticsValue.name)
  lists :=
    { statistics := .ofStatistics (concat (schemas.map fun s => some s.statistics))
      ranges := .ofLists (schemas.map fun s => some s.statistics) (Nat.le_refl _) }
  listsFit := by
    show 0 + (schemas.map SchemaStatisticsValue.name).length ≤ (schemas.map _).length
    simp

theorem SchemaStatistics.name_ofSchemas {schemas : List SchemaStatisticsValue} {k : Nat}
    (hk : k < schemas.length) : (ofSchemas schemas).name k = schemas[k].name := by
  refine (name_ofNames (by rwa [List.length_map])).trans ?_
  rw [List.getElem_map]

theorem SchemaStatistics.statisticsOf_ofSchemas {schemas : List SchemaStatisticsValue} {k : Nat}
    (hk : k < schemas.length) : (ofSchemas schemas).statisticsOf k = schemas[k].statistics := by
  have hk' : k < (schemas.map fun s => some s.statistics).length := by rwa [List.length_map]
  have hread := value_ofLists (g := some) (Nat.le_refl _) (fun m statistic hm => by
    obtain ⟨hlt, rfl⟩ := List.getElem?_eq_some_iff.mp hm
    exact StatisticsStructs.statistic_ofStatistics hlt) hk'
  rw [List.getElem_map, Option.map_some, Option.map_eq_some_iff] at hread
  obtain ⟨ps, hps, hmap⟩ := hread
  have hvalue : (ofSchemas schemas).statisticsOf k = (((Ranges.ofLists
      (schemas.map fun s => some s.statistics) (Nat.le_refl _)).value (0 + k)).getD []).filterMap
        (StatisticsStructs.ofStatistics
          (concat (schemas.map fun s => some s.statistics))).statistic := rfl
  rw [hvalue, Nat.zero_add, hps, Option.getD_some]
  have hfilter := congrArg (List.filterMap id) hmap
  simpa [List.filterMap_map] using hfilter

theorem SchemaStatistics.length_ofSchemas (schemas : List SchemaStatisticsValue) :
    schemas.length ≤ (ofSchemas schemas).length := Nat.le_of_eq (List.length_map _).symm

/-- Catalogs laid out one after the other, with all that is in them. -/
def StatisticsBatch.ofCatalogs (catalogs : List CatalogStatisticsValue) : StatisticsBatch where
  toNamedStructs := .ofNames (catalogs.map CatalogStatisticsValue.name)
  schemaLists :=
    { schemas := .ofSchemas (concat (catalogs.map fun c => some c.schemas))
      ranges := .ofLists (catalogs.map fun c => some c.schemas)
        (SchemaStatistics.length_ofSchemas _) }
  schemasFit := by
    show 0 + (catalogs.map CatalogStatisticsValue.name).length ≤ (catalogs.map _).length
    simp

theorem StatisticsBatch.schemasAt_ofCatalogs (catalogs : List CatalogStatisticsValue) (i : Nat) :
    (ofCatalogs catalogs).schemasAt i = ((Ranges.ofLists (catalogs.map fun c => some c.schemas)
      (SchemaStatistics.length_ofSchemas _)).value i).getD [] := by
  show (Ranges.value _ (0 + i)).getD [] = _
  rw [Nat.zero_add]
  rfl

/-- A `flatMap` over a list as one over its positions. -/
theorem flatMap_eq_range {α β : Type} (l : List α) (f : α → List β) :
    l.flatMap f = (List.range l.length).flatMap fun i => l[i]?.elim [] f := by
  induction l with
  | nil => rfl
  | cons a l ih =>
    rw [List.length_cons, List.range_succ_eq_map, List.flatMap_cons, List.flatMap_cons,
      List.flatMap_map, ih]
    rfl

/-- **Statistics read back.**  Hence any statistics are those of some batch. -/
theorem StatisticsBatch.rows_ofCatalogs (catalogs : List CatalogStatisticsValue) :
    (ofCatalogs catalogs).rows = statisticsIn catalogs := by
  have hrows : (ofCatalogs catalogs).rows = (List.range catalogs.length).flatMap fun i =>
      ((ofCatalogs catalogs).schemasAt i).flatMap fun k =>
        ((ofCatalogs catalogs).schemas.statisticsOf k).map fun s =>
          ⟨(ofCatalogs catalogs).name i, (ofCatalogs catalogs).schemas.name k, s⟩ := by
    rw [rows]
    exact congrArg (fun n => (List.range n).flatMap _) (List.length_map _)
  rw [hrows, statisticsIn, flatMap_eq_range catalogs]
  refine List.flatMap_congr fun i hi => ?_
  have hi : i < catalogs.length := List.mem_range.mp hi
  have hi' : i < (catalogs.map fun c => some c.schemas).length := by rwa [List.length_map]
  have hname : (ofCatalogs catalogs).name i = catalogs[i].name := by
    refine (name_ofNames (by rwa [List.length_map])).trans ?_
    rw [List.getElem_map]
  have hread := value_ofLists
    (f := fun k => ((ofCatalogs catalogs).schemas.statisticsOf k).map fun s =>
      (⟨catalogs[i].name, (ofCatalogs catalogs).schemas.name k, s⟩ : StatisticRow))
    (g := fun s => s.statistics.map fun t => ⟨catalogs[i].name, s.name, t⟩)
    (SchemaStatistics.length_ofSchemas _) (fun k schema hk => by
      obtain ⟨hlt, rfl⟩ := List.getElem?_eq_some_iff.mp hk
      show ((SchemaStatistics.ofSchemas _).statisticsOf k).map _ = _
      rw [SchemaStatistics.statisticsOf_ofSchemas hlt]
      refine List.map_congr_left fun s _ => ?_
      show StatisticRow.mk _ ((SchemaStatistics.ofSchemas _).name k) s = _
      rw [SchemaStatistics.name_ofSchemas hlt]) hi'
  rw [List.getElem_map, Option.map_some, Option.map_eq_some_iff] at hread
  obtain ⟨ks, hks, hmap⟩ := hread
  have hschemas : (ofCatalogs catalogs).schemasAt i = ks := by
    rw [schemasAt_ofCatalogs, hks, Option.getD_some]
  rw [hschemas, hname, List.getElem?_eq_getElem hi, Option.elim_some]
  show (ks.map _).flatten = (catalogs[i].schemas.map _).flatten
  rw [hmap]

end AdbcClient
