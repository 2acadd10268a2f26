import AdbcClient.Catalog
import AdbcClient.StatisticsLayout

/-!
# The cardinality of a scan

`GetScanFunction` asks the driver for the statistics of the table that is to be scanned, and
`GetTableCardinality` looks in the answer for a row count (`adbc_table_entry.cpp`).  It goes
through the slots of all statistics in a batch, and takes the first one that is held by the
`float64` member and whose column name has no validity bit: `StatisticsBatch.hits` are the
values of these slots, and `getTableCardinality_eq` says that nothing else counts.

`cardinality_belongs_iff` says when the result is a row count of the scanned table, and
`cardinality_converts_iff` when the conversion of the value is in range.
-/
namespace AdbcClient
open VariableLayout

/-- The arguments of `AdbcConnectionGetStatistics`.  `none` is a null pointer. -/
structure GetStatisticsRequest where
  catalog : Option String
  schema : String
  table : String
  approximate : Bool
  deriving DecidableEq, Repr

/-- What the driver answers to `GetStatistics`: it returns a stream, does not implement the call, or
fails. -/
inductive GetStatisticsAnswer where
  | ok (batches : List StatisticsArray) (ending : StreamEnd)
  | notImplemented
  | failed (message : String)

/-- What `GetTableCardinality` can throw.  The last two stand for undefined behaviour, which
the code does not notice. -/
inductive CardinalityError where
  | io (message : String)
  | invalidIndex
  | outsideBuffer
  | outOfRange
  deriving DecidableEq, Repr

/-- `ADBC_STATISTIC_ROW_COUNT_KEY`. -/
def rowCountKey : Int := 6

/-- `DConstants::INVALID_INDEX`. -/
def invalidIndex : Nat := 2 ^ 64 - 1

/-- A rational without its fraction, as a cast to an integer leaves it. -/
def truncate (q : ℚ) : Int := if 0 ≤ q then ⌊q⌋ else ⌈q⌉

/-- `static_cast<idx_t>`. -/
def Double.toIdx : Double → Except CardinalityError Nat
  | .finite q =>
    if 0 ≤ truncate q ∧ truncate q < 2 ^ 64 then .ok (truncate q).toNat else .error .outOfRange
  | .nan | .infinity | .negInfinity => .error .outOfRange

/-- `optional_idx(index)`, which throws on the index it is reserved for. -/
def optionalIdx (index : Nat) : Except CardinalityError (Option Nat) :=
  if index = invalidIndex then .error .invalidIndex else .ok (some index)

/-- `buffer[i]`. -/
def readBuffer {α : Type} (buffer : List α) (i : Nat) : Except CardinalityError α :=
  match buffer[i]? with
  | some a => .ok a
  | none => .error .outsideBuffer

/-- `children[i]`, unless it is missing or null. -/
def StatisticsArray.child (a : StatisticsArray) (i : Nat) : Option StatisticsArray :=
  a.children[i]?.join

/-- What the loop over the statistics reads. -/
structure StatisticsColumns where
  length : Nat
  keys : List Int
  types : List Int
  offsets : List Int
  values : List Double
  validity : Option (List Bool)

/-- The way down to the statistics of a batch; `none` where the batch is passed over. -/
def StatisticsArray.columns (batch : StatisticsArray) : Option StatisticsColumns := do
  let schemasList ← batch.child 1
  guard (schemasList.length ≠ 0)
  let schemaStruct ← schemasList.child 0
  guard (schemaStruct.length ≠ 0)
  let tablesList ← schemaStruct.child 1
  guard (tablesList.length ≠ 0)
  let tableStruct ← tablesList.child 0
  guard (tableStruct.length ≠ 0)
  let colNameCol ← tableStruct.child 1
  let statKeyCol ← tableStruct.child 2
  let statValCol ← tableStruct.child 3
  let doubleChild ← statValCol.child 2
  let keys ← statKeyCol.int16s
  let types ← statValCol.typeIds
  let offsets ← statValCol.offsets
  let values ← doubleChild.doubles
  return ⟨tableStruct.length, keys, types, offsets, values, colNameCol.validity⟩

namespace StatisticsColumns
variable (c : StatisticsColumns)

/-- `is_whole_table`. -/
def isWholeTable (i : Nat) : Except CardinalityError Bool :=
  match c.validity with
  | none => .ok true
  | some bits => do return !(← readBuffer bits i)

/-- The test of the loop: whether a statistic is a row count that is to be used. -/
def accepts (i : Nat) : Except CardinalityError Bool := do
  if !(← c.isWholeTable i) then return false
  if (← readBuffer c.keys i) ≠ rowCountKey then return false
  return (← readBuffer c.types i) == 2

/-- `values[offsets[i]]`. -/
def valueAt (i : Nat) : Except CardinalityError Double := do
  let position ← readBuffer c.offsets i
  if position < 0 then .error .outsideBuffer else readBuffer c.values position.toNat

/-- The loop over the statistics of a batch, which may return. -/
def loop : List Nat → Except CardinalityError (Option Nat)
  | [] => .ok none
  | i :: is => do
    if ← c.accepts i then optionalIdx (← (← c.valueAt i).toIdx) else loop is

end StatisticsColumns

/-- The loop over the batches.  Both endings of the stream break it. -/
def statisticsLoop : List StatisticsArray → Except CardinalityError (Option Nat)
  | [] => .ok none
  | batch :: batches =>
    match batch.columns with
    | none => statisticsLoop batches
    | some columns => do
      match ← columns.loop (List.range columns.length) with
      | some index => return some index
      | none => statisticsLoop batches

/-- `GetTableCardinality`.  It is given a catalog name, and asks without one. -/
def getTableCardinality (getStatistics : GetStatisticsRequest → GetStatisticsAnswer)
    (_catalogName : Option String) (schemaName tableName : String) :
    Except CardinalityError (Option Nat) :=
  match getStatistics ⟨none, schemaName, tableName, true⟩ with
  | .notImplemented => .ok none
  | .failed message => .error (.io message)
  | .ok batches _ => statisticsLoop batches

/-- The bind data of a scan: what binding its query gives, and the cardinality, which the
planner is given as the number of rows if there is one. -/
structure ScanBindData (σ : Type) where
  arrow : σ
  cardinality : Option Nat

/-- What planning a scan can throw, from the cardinality or from the bind. -/
inductive ScanError where
  | cardinality (error : CardinalityError)
  | binder (message : String)
  deriving DecidableEq, Repr

/-- `GetScanFunction`. -/
def getScanFunction {σ : Type} (getStatistics : GetStatisticsRequest → GetStatisticsAnswer)
    (bindScan : String → Except String σ) (delimiter : Delimiter) (c : AdbcCatalog)
    (schema table : String) : Except ScanError (ScanBindData σ) :=
  match getTableCardinality getStatistics (catalogArgument c.catalogName)
      (getInternalSchemaName c.noSchemas schema) table with
  | .error error => .error (.cardinality error)
  | .ok cardinality =>
    match bindScan (getDelimitedInternalName delimiter c.noSchemas schema table) with
    | .error message => .error (.binder message)
    | .ok arrow => .ok ⟨arrow, cardinality⟩

/-! ## What the loops find -/

/-- What the code makes of a value. -/
def Double.convert (d : Double) : Except CardinalityError (Option Nat) := do
  optionalIdx (← d.toIdx)

/-- The row count that a value stands for, without its fraction. -/
def Double.rowCount : Double → Option Nat
  | .finite q => if 0 ≤ q ∧ q < invalidIndex then some ⌊q⌋.toNat else none
  | .nan | .infinity | .negInfinity => none

theorem Double.convert_ok {d : Double} {n : Nat} (h : d.toIdx = .ok n) (hn : n ≠ invalidIndex) :
    d.convert = .ok (some n) := by
  rw [convert, h]
  exact if_neg hn

theorem Double.convert_invalid {d : Double} (h : d.toIdx = .ok invalidIndex) :
    d.convert = .error .invalidIndex := by
  rw [convert, h]
  show optionalIdx invalidIndex = _
  exact if_pos rfl

theorem Double.toIdx_error {d : Double} {e : CardinalityError} (h : d.toIdx = .error e) :
    e = .outOfRange := by
  cases d with
  | finite q =>
    rw [toIdx] at h
    split at h
    · cases h
    · exact (Except.error.inj h).symm
  | _ => exact (Except.error.inj h).symm

theorem Double.convert_error {d : Double} {e : CardinalityError} (h : d.toIdx = .error e) :
    d.convert = .error .outOfRange := by
  obtain rfl := toIdx_error h
  rw [convert, h]
  rfl

/-- A conversion throws or gives a value. -/
theorem Double.convert_cases (d : Double) :
    (∃ e, d.convert = .error e) ∨ ∃ n, d.convert = .ok (some n) := by
  cases hidx : d.toIdx with
  | error e => exact .inl ⟨_, convert_error hidx⟩
  | ok n =>
    by_cases hn : n = invalidIndex
    · exact .inl ⟨_, convert_invalid (hn ▸ hidx)⟩
    · exact .inr ⟨n, convert_ok hidx hn⟩

/-- A value in range converts to the row count that it stands for. -/
theorem Double.toIdx_of_inRange {q : ℚ} (h : 0 ≤ q) (hlt : q < invalidIndex) :
    (Double.finite q).toIdx = .ok ⌊q⌋.toNat ∧ ⌊q⌋.toNat < invalidIndex := by
  have hfloor : 0 ≤ ⌊q⌋ := Int.floor_nonneg.mpr h
  have hbound : ⌊q⌋ < (invalidIndex : Int) := Int.floor_lt.mpr (by exact_mod_cast hlt)
  have hfits : (invalidIndex : Int) < 2 ^ 64 := by decide
  rw [toIdx, truncate, if_pos h, if_pos ⟨hfloor, hbound.trans hfits⟩]
  exact ⟨rfl, by omega⟩

/-- **When the conversion gives the row count.** -/
theorem Double.convert_eq_iff (d : Double) :
    d.convert = .ok d.rowCount ↔ ∃ q, d = .finite q ∧ 0 ≤ q ∧ q < invalidIndex := by
  constructor
  · intro h
    cases hcount : d.rowCount with
    | some n =>
      cases d with
      | finite q =>
        rw [rowCount] at hcount
        split at hcount
        · exact ⟨q, rfl, ‹_›⟩
        · cases hcount
      | _ => cases hcount
    | none =>
      rw [hcount] at h
      rcases d.convert_cases with ⟨e, he⟩ | ⟨n, he⟩
      · cases he.symm.trans h
      · cases he.symm.trans h
  · rintro ⟨q, rfl, hpos, hlt⟩
    obtain ⟨hidx, hne⟩ := toIdx_of_inRange hpos hlt
    rw [convert_ok hidx (Nat.ne_of_lt hne), rowCount, if_pos ⟨hpos, hlt⟩]

namespace StatisticsStructs
variable (a : StatisticsStructs)

/-- The slot passes the test of the loop: no bit of the bitmap says that there is a column
name, and the `float64` member holds a value of the right key. -/
def accepts (i : Nat) : Bool :=
  (a.columnNames.ranges.validity.all fun bits => !bits.getD i true) &&
    (a.keys.buffer.getD []).getD i 0 == rowCountKey && a.values.typeIds.getD i 0 == 2

/-- What the loop reads for the slot, unless that is outside of the buffer. -/
def doubleAt (i : Nat) : Option Double := do
  let position ← a.values.offsets[i]?
  if position < 0 then none else (a.values.float64s.buffer.getD [])[position.toNat]?

end StatisticsStructs

namespace StatisticsBatch
variable (b : StatisticsBatch)

/-- The batch is not passed over: the loop goes down to its statistics. -/
def Searched : Prop :=
  b.schemaLists.ranges.length ≠ 0 ∧ b.schemas.length ≠ 0 ∧ b.schemas.lists.ranges.length ≠ 0 ∧
    b.statistics.length ≠ 0 ∧ b.statistics.values.float64s.buffer.isSome

instance : Decidable b.Searched := inferInstanceAs (Decidable (_ ∧ _ ∧ _ ∧ _ ∧ _))

/-- The values of the slots that pass the test. -/
def hits : List (Option Double) :=
  if b.Searched then
    ((List.range b.statistics.length).filter b.statistics.accepts).map b.statistics.doubleAt
  else []

end StatisticsBatch

theorem readBuffer_of_lt {α : Type} {buffer : List α} {i : Nat} (default : α)
    (hi : i < buffer.length) : readBuffer buffer i = .ok (buffer.getD i default) := by
  rw [readBuffer, List.getElem?_eq_getElem hi, List.getD_eq_getElem?_getD,
    List.getElem?_eq_getElem hi, Option.getD_some]

namespace StatisticsStructs
variable (a : StatisticsStructs)

/-- The buffers of a struct array, as the loop takes them. -/
def columns : StatisticsColumns where
  length := a.length
  keys := a.keys.buffer.getD []
  types := a.values.typeIds
  offsets := a.values.offsets
  values := a.values.float64s.buffer.getD []
  validity := a.columnNames.ranges.validity

variable {a} {i : Nat}

/-- The slots that the loop tests lie in the buffers. -/
theorem lt_buffers (hi : i < a.length) :
    (∀ bits, a.columnNames.ranges.validity = some bits → i < bits.length) ∧
      i < (a.keys.buffer.getD []).length ∧ i < a.values.typeIds.length := by
  have hnames := a.columnNamesFit
  have hkeys := a.keysFit
  have hvalues := a.valuesFit
  refine ⟨fun bits hbits => ?_, ?_, ?_⟩
  · have hcovered := a.columnNames.ranges.covered bits hbits
    omega
  · have hsize := a.keys.size (by omega)
    omega
  · -- the last value of the union has a type
    have hlast := a.values.defined (a.values.length - 1) (by omega)
    by_contra hshort
    have hnone : a.values.typeIds[a.values.offset + (a.values.length - 1)]? = none :=
      List.getElem?_eq_none (by omega)
    simp [UnionArrays.value, hnone] at hlast

/-- **The test of the loop** reads inside of the buffers. -/
theorem accepts_columns (hi : i < a.length) : a.columns.accepts i = .ok (a.accepts i) := by
  obtain ⟨hbits, hkey, htype⟩ := lt_buffers hi
  have hwhole : a.columns.isWholeTable i =
      .ok (a.columnNames.ranges.validity.all fun bits => !bits.getD i true) := by
    simp only [StatisticsColumns.isWholeTable, columns]
    cases hvalidity : a.columnNames.ranges.validity with
    | none => rfl
    | some bits =>
      have hread := readBuffer_of_lt true (hbits bits hvalidity)
      simp only [hread]
      rfl
  have hkeys : readBuffer a.columns.keys i = .ok ((a.keys.buffer.getD []).getD i 0) :=
    readBuffer_of_lt 0 hkey
  have htypes : readBuffer a.columns.types i = .ok (a.values.typeIds.getD i 0) :=
    readBuffer_of_lt 0 htype
  rw [StatisticsColumns.accepts, hwhole, hkeys, htypes, accepts]
  generalize (a.keys.buffer.getD []).getD i 0 = key
  cases a.columnNames.ranges.validity.all fun bits => !bits.getD i true with
  | false => rfl
  | true =>
    by_cases hk : key = rowCountKey
    · simp [bind, Except.bind, pure, Except.pure, hk]
    · simp [bind, Except.bind, pure, Except.pure, hk]

theorem valueAt_columns (i : Nat) :
    a.columns.valueAt i = (a.doubleAt i).elim (.error .outsideBuffer) .ok := by
  rw [StatisticsColumns.valueAt, doubleAt, columns, readBuffer]
  cases a.values.offsets[i]? with
  | none => rfl
  | some position =>
    by_cases hneg : position < 0
    · simp [bind, Except.bind, hneg]
    · simp only [bind, Except.bind, hneg, if_false, Option.bind_some, readBuffer]
      cases (a.values.float64s.buffer.getD [])[position.toNat]? <;> rfl

/-- **The loop over the slots** ends at the first one that passes. -/
theorem loop_columns (is : List Nat) (his : ∀ i ∈ is, i < a.length) :
    a.columns.loop is = match ((is.filter a.accepts).map a.doubleAt).head? with
      | none => .ok none
      | some none => .error .outsideBuffer
      | some (some d) => d.convert := by
  induction is with
  | nil => rfl
  | cons i is ih =>
    have hrest := ih fun j hj => his j (List.mem_cons_of_mem i hj)
    rw [StatisticsColumns.loop, accepts_columns (his i List.mem_cons_self), valueAt_columns]
    cases haccepts : a.accepts i with
    | false => simpa [bind, Except.bind, haccepts] using hrest
    | true =>
      rw [List.filter_cons_of_pos haccepts, List.map_cons, List.head?_cons]
      cases a.doubleAt i <;> rfl

end StatisticsStructs

/-- **The way down** to the statistics of a batch. -/
theorem StatisticsBatch.columns_toArrow (b : StatisticsBatch) :
    b.toArrow.columns = if b.Searched then some b.statistics.columns else none := by
  have hkeys : b.statistics.length ≠ 0 →
      b.statistics.keys.buffer = some (b.statistics.keys.buffer.getD []) := by
    intro hlength
    have hlt := (StatisticsStructs.lt_buffers (a := b.statistics) (i := 0) (by omega)).2.1
    cases hbuffer : b.statistics.keys.buffer with
    | none => simp [hbuffer] at hlt
    | some keys => rfl
  show (do
    guard (b.schemaLists.ranges.length ≠ 0)
    guard (b.schemas.length ≠ 0)
    guard (b.schemas.lists.ranges.length ≠ 0)
    guard (b.statistics.length ≠ 0)
    let keys ← b.statistics.keys.buffer
    let values ← b.statistics.values.float64s.buffer
    return ⟨b.statistics.length, keys, b.statistics.values.typeIds, b.statistics.values.offsets,
      values, b.statistics.columnNames.ranges.validity⟩ : Option StatisticsColumns) = _
  by_cases hschemas : b.schemaLists.ranges.length = 0
  · simp [Searched, guard, hschemas]
  by_cases hstructs : b.schemas.length = 0
  · simp [Searched, guard, hstructs]
  by_cases hlists : b.schemas.lists.ranges.length = 0
  · simp [Searched, guard, hlists]
  by_cases hstatistics : b.statistics.length = 0
  · simp [Searched, guard, hstatistics]
  rw [hkeys hstatistics]
  cases hdoubles : b.statistics.values.float64s.buffer with
  | none => simp [Searched, guard, hdoubles]
  | some values =>
    simp [Searched, guard, hdoubles, hschemas, hstructs, hlists, hstatistics,
      StatisticsStructs.columns]

/-- **The loop over the batches** ends at the first value that passes, and converts it. -/
theorem statisticsLoop_toArrow (batches : List StatisticsBatch) :
    statisticsLoop (batches.map StatisticsBatch.toArrow) =
      match (batches.flatMap StatisticsBatch.hits).head? with
      | none => .ok none
      | some none => .error .outsideBuffer
      | some (some d) => d.convert := by
  induction batches with
  | nil => rfl
  | cons b batches ih =>
    rw [List.map_cons, statisticsLoop, b.columns_toArrow, List.flatMap_cons]
    by_cases hsearched : b.Searched
    · have hhits : b.hits = ((List.range b.statistics.length).filter
          b.statistics.accepts).map b.statistics.doubleAt := if_pos hsearched
      have hloop := StatisticsStructs.loop_columns (a := b.statistics)
        (List.range b.statistics.length) (fun i hi => List.mem_range.mp hi)
      rw [← hhits] at hloop
      rw [if_pos hsearched]
      show (do
        match ← b.statistics.columns.loop (List.range b.statistics.length) with
        | some index => return some index
        | none => statisticsLoop (batches.map StatisticsBatch.toArrow)) = _
      rw [hloop]
      cases hb : b.hits with
      | nil => exact ih
      | cons hit hits =>
        cases hit with
        | none => rfl
        | some d =>
          show (do
            match ← d.convert with
            | some index => return some index
            | none => statisticsLoop (batches.map StatisticsBatch.toArrow)) = d.convert
          rcases d.convert_cases with ⟨e, he⟩ | ⟨n, he⟩
          · rw [he]
            rfl
          · rw [he]
            rfl
    · have hhits : b.hits = [] := if_neg hsearched
      rw [if_neg hsearched, hhits]
      exact ih

/-- The value of a row count of a table, if the `float64` member holds it. -/
def Statistic.float64RowCount (s : Statistic) : Option Double :=
  match s.value with
  | .float64 d => if s.columnName = none ∧ s.key = rowCountKey then some d else none
  | _ => none

/-- A list filtered and mapped, by its positions. -/
theorem filterMap_eq_range {α β : Type} (l : List α) (f : α → Option β) :
    l.filterMap f = (List.range l.length).filterMap fun i => l[i]?.bind f := by
  induction l with
  | nil => rfl
  | cons a l ih =>
    rw [List.length_cons, List.range_succ_eq_map, List.filterMap_cons, List.filterMap_cons,
      List.filterMap_map, ih]
    rfl

section OfStatistics
variable {statistics : List Statistic} {i : Nat}

theorem accepts_ofStatistics (hi : i < statistics.length) :
    (StatisticsStructs.ofStatistics statistics).accepts i = statistics[i].float64RowCount.isSome := by
  have hbit : ((StatisticsStructs.ofStatistics statistics).columnNames.ranges.validity.all
      fun bits => !bits.getD i true) = statistics[i].columnName.isNone := by
    show (!(((statistics.map Statistic.columnName).map (Option.map String.toList)).map
      Option.isSome).getD i true) = _
    simp [List.getD_eq_getElem?_getD, hi]
  have hkey : ((StatisticsStructs.ofStatistics statistics).keys.buffer.getD []).getD i 0 =
      statistics[i].key := by
    show (statistics.map Statistic.key).getD i 0 = _
    simp [List.getD_eq_getElem?_getD, hi]
  have htype : (StatisticsStructs.ofStatistics statistics).values.typeIds.getD i 0 =
      statistics[i].value.typeId := by
    show ((statistics.map Statistic.value).map StatisticValue.typeId).getD i 0 = _
    simp [List.getD_eq_getElem?_getD, hi]
  rw [StatisticsStructs.accepts, hbit, hkey, htype, Statistic.float64RowCount]
  cases statistics[i].value with
  | float64 d =>
    by_cases hcolumn : statistics[i].columnName = none
    · by_cases hk : statistics[i].key = rowCountKey <;> simp [hcolumn, hk, StatisticValue.typeId]
    · simp [hcolumn, Option.isNone_iff_eq_none]
  | _ => simp [StatisticValue.typeId]

theorem doubleAt_ofStatistics (hi : i < statistics.length) {d : Double}
    (hd : statistics[i].float64RowCount = some d) :
    (StatisticsStructs.ofStatistics statistics).doubleAt i = some d := by
  have hvalue : statistics[i].value = .float64 d := by
    rw [Statistic.float64RowCount] at hd
    split at hd
    · split at hd
      · rename_i h _
        rw [h, Option.some.inj hd]
      · cases hd
    · cases hd
  have hposition : (StatisticsStructs.ofStatistics statistics).values.offsets[i]? =
      some (i : Int) := by
    show ((List.range (statistics.map Statistic.value).length).map fun n : Nat => (n : Int))[i]? = _
    simp [hi]
  have hbuffer : ((StatisticsStructs.ofStatistics statistics).values.float64s.buffer.getD [])[i]? =
      some d := by
    show ((statistics.map Statistic.value).map fun | .float64 d => d | _ => .nan)[i]? = _
    simp [hi, hvalue]
  rw [StatisticsStructs.doubleAt, hposition, Option.bind_eq_bind, Option.bind_some,
    if_neg (by omega), Int.toNat_natCast, hbuffer]

/-- The slots that pass are those of row counts in the `float64` member. -/
theorem hits_ofStatistics {is : List Nat} (his : ∀ i ∈ is, i < statistics.length) :
    (is.filter (StatisticsStructs.ofStatistics statistics).accepts).map
        (StatisticsStructs.ofStatistics statistics).doubleAt =
      (is.filterMap fun i => statistics[i]?.bind Statistic.float64RowCount).map some := by
  induction is with
  | nil => rfl
  | cons i is ih =>
    have hi := his i List.mem_cons_self
    have hrest := ih fun j hj => his j (List.mem_cons_of_mem i hj)
    have haccepts := accepts_ofStatistics hi
    rw [List.filterMap_cons, List.getElem?_eq_getElem hi, Option.bind_some]
    cases hd : statistics[i].float64RowCount with
    | none =>
      rw [hd] at haccepts
      rw [List.filter_cons_of_neg (by simp [haccepts])]
      exact hrest
    | some d =>
      rw [hd] at haccepts
      rw [List.filter_cons_of_pos (by simp [haccepts]), List.map_cons, List.map_cons, hrest,
        doubleAt_ofStatistics hi hd]

end OfStatistics

namespace StatisticsBatch
variable (catalogs : List CatalogStatisticsValue)

theorem statistics_ofCatalogs : (ofCatalogs catalogs).statistics =
    .ofStatistics ((statisticsIn catalogs).map StatisticRow.statistic) := by
  have hflat : (statisticsIn catalogs).map StatisticRow.statistic =
      concat ((concat (catalogs.map fun c => some c.schemas)).map fun s => some s.statistics) := by
    simp [statisticsIn, concat, List.map_flatMap, List.flatMap_map, List.flatMap_assoc,
      Function.comp_def]
  rw [hflat]
  rfl

/-- A batch without statistics may be passed over. -/
theorem searched_ofCatalogs (h : (statisticsIn catalogs).map StatisticRow.statistic ≠ []) :
    (ofCatalogs catalogs).Searched := by
  have hcatalogs : catalogs ≠ [] := by
    rintro rfl
    exact h rfl
  have hschemas : concat (catalogs.map fun c => some c.schemas) ≠ [] := by
    intro hnil
    simp only [concat, List.flatMap_map, Option.getD_some, List.flatMap_eq_nil_iff] at hnil
    refine h (List.map_eq_nil_iff.mpr (List.flatMap_eq_nil_iff.mpr fun c hc => ?_))
    rw [hnil c hc]
    rfl
  have hschemasLength : (concat (catalogs.map fun c => some c.schemas)).length ≠ 0 :=
    fun hzero => hschemas (List.length_eq_zero_iff.mp hzero)
  refine ⟨?_, ?_, ?_, ?_, ?_⟩
  · show (catalogs.map _).length ≠ 0
    rw [List.length_map]
    exact fun hzero => hcatalogs (List.length_eq_zero_iff.mp hzero)
  · show ((concat (catalogs.map fun c => some c.schemas)).map _).length ≠ 0
    rwa [List.length_map]
  · show ((concat (catalogs.map fun c => some c.schemas)).map _).length ≠ 0
    rwa [List.length_map]
  · rw [statistics_ofCatalogs]
    exact fun hzero => h (List.length_eq_zero_iff.mp hzero)
  · rw [statistics_ofCatalogs]
    rfl

/-- **The hits of statistics that are laid out one after the other**: the row counts of all
tables that the `float64` member holds. -/
theorem hits_ofCatalogs : (ofCatalogs catalogs).hits =
    ((statisticsIn catalogs).filterMap fun row => row.statistic.float64RowCount).map some := by
  have hstatistics := statistics_ofCatalogs catalogs
  have hall : (ofCatalogs catalogs).hits =
      ((List.range (ofCatalogs catalogs).statistics.length).filter
        (ofCatalogs catalogs).statistics.accepts).map (ofCatalogs catalogs).statistics.doubleAt := by
    by_cases h : (statisticsIn catalogs).map StatisticRow.statistic = []
    · rw [hits, hstatistics, h]
      split <;> rfl
    · exact if_pos (searched_ofCatalogs catalogs h)
  have hvalues : ((statisticsIn catalogs).filterMap fun row => row.statistic.float64RowCount) =
      ((statisticsIn catalogs).map StatisticRow.statistic).filterMap Statistic.float64RowCount := by
    rw [List.filterMap_map]
    rfl
  rw [hall, hstatistics, hvalues, filterMap_eq_range]
  exact hits_ofStatistics fun i hi => List.mem_range.mp hi

end StatisticsBatch

/-! ## Whose row count it is -/

/-- The table to be scanned, by its names at the remote. -/
structure ScannedTable where
  catalog : String
  schema : String
  table : String
  deriving DecidableEq, Repr

/-- A row count of the table: its key is that of row counts, it has no column, and it names the
table. -/
def StatisticRow.IsRowCountOf (t : ScannedTable) (row : StatisticRow) : Prop :=
  row.catalogName.getD "" = t.catalog ∧ row.schemaName.getD "" = t.schema ∧
    row.statistic.tableName = some t.table ∧ row.statistic.columnName = none ∧
    row.statistic.key = rowCountKey

instance (t : ScannedTable) (row : StatisticRow) : Decidable (row.IsRowCountOf t) :=
  inferInstanceAs (Decidable (_ ∧ _ ∧ _ ∧ _ ∧ _))

/-- The row counts of the table, whichever member holds them. -/
def rowCounts (t : ScannedTable) (batches : List StatisticsBatch) : List StatisticValue :=
  ((batches.flatMap StatisticsBatch.rows).filter (·.IsRowCountOf t)).map (·.statistic.value)

/-- The number of rows that a value stands for. -/
def StatisticValue.count : StatisticValue → Option Nat
  | .int64 n => if 0 ≤ n then some n.toNat else none
  | .uint64 n => some n
  | .float64 d => d.rowCount
  | .binary => none

/-- The first value that passes the test of the loops. -/
def firstHit (batches : List StatisticsBatch) : Option (Option Double) :=
  (batches.flatMap StatisticsBatch.hits).head?

/-- A driver that answers every request with statistics. -/
def answeringStatistics (answer : GetStatisticsRequest → List StatisticsBatch)
    (ending : StreamEnd) : GetStatisticsRequest → GetStatisticsAnswer :=
  fun request => .ok ((answer request).map StatisticsBatch.toArrow) ending

/-- **What `GetTableCardinality` returns**: the first value that passes, converted. -/
theorem getTableCardinality_eq (answer : GetStatisticsRequest → List StatisticsBatch)
    (ending : StreamEnd) (catalogName : Option String) (schema table : String) :
    getTableCardinality (answeringStatistics answer ending) catalogName schema table =
      match firstHit (answer ⟨none, schema, table, true⟩) with
      | none => .ok none
      | some none => .error .outsideBuffer
      | some (some d) => d.convert := statisticsLoop_toArrow _

/-- **The cardinality belongs to the scanned table**, and is there if the table has a row
count. -/
structure BelongsTo (t : ScannedTable) (batches : List StatisticsBatch)
    (result : Except CardinalityError (Option Nat)) : Prop where
  only : ∀ n, result = .ok (some n) → ∃ value ∈ rowCounts t batches, value.count = some n
  whenever : rowCounts t batches ≠ [] → ∃ n, result = .ok (some n)
  inBuffer : result ≠ .error .outsideBuffer
  inRange : result ≠ .error .outOfRange

/-- The first value that passes the test is a row count of the table. -/
def TakesRowCount (t : ScannedTable) (batches : List StatisticsBatch) :
    Option (Option Double) → Prop
  | none => rowCounts t batches = []
  | some none => False
  | some (some d) =>
    match d.toIdx with
    | .error _ => False
    | .ok n =>
      if n = invalidIndex then rowCounts t batches = []
      else ∃ value ∈ rowCounts t batches, value.count = some n

/-- Without a result, the table is to have no row count. -/
theorem belongsTo_iff_of_none {t : ScannedTable} {batches : List StatisticsBatch}
    {result : Except CardinalityError (Option Nat)} (hnone : ∀ n, result ≠ .ok (some n))
    (hbuffer : result ≠ .error .outsideBuffer) (hrange : result ≠ .error .outOfRange) :
    BelongsTo t batches result ↔ rowCounts t batches = [] := by
  constructor
  · intro h
    by_contra hcounts
    obtain ⟨n, hn⟩ := h.whenever hcounts
    exact hnone n hn
  · intro hcounts
    exact ⟨fun n hn => absurd hn (hnone n), fun hne => absurd hcounts hne, hbuffer, hrange⟩

/-- **When the cardinality belongs to the scanned table.**  What the loop returns is a row count of
that table, and is there if the table has one, if and only if the first value that passes the test
is one of these row counts, or if there is neither. -/
theorem cardinality_belongs_iff (t : ScannedTable)
    (answer : GetStatisticsRequest → List StatisticsBatch) (ending : StreamEnd) :
    BelongsTo t (answer ⟨none, t.schema, t.table, true⟩)
        (getTableCardinality (answeringStatistics answer ending) (catalogArgument t.catalog)
          t.schema t.table) ↔
      TakesRowCount t (answer ⟨none, t.schema, t.table, true⟩)
        (firstHit (answer ⟨none, t.schema, t.table, true⟩)) := by
  rw [getTableCardinality_eq]
  generalize answer ⟨none, t.schema, t.table, true⟩ = batches
  cases firstHit batches with
  | none => exact belongsTo_iff_of_none (by simp) (by simp) (by simp)
  | some hit =>
    cases hit with
    | none => exact iff_of_false (fun h => h.inBuffer rfl) id
    | some d =>
      show BelongsTo t batches d.convert ↔ TakesRowCount t batches (some (some d))
      rw [TakesRowCount]
      cases hidx : d.toIdx with
      | error e =>
        rw [Double.convert_error hidx]
        exact iff_of_false (fun h => h.inRange rfl) id
      | ok n =>
        by_cases hn : n = invalidIndex
        · rw [Double.convert_invalid (hn ▸ hidx)]
          simp only [hn, if_true]
          exact belongsTo_iff_of_none (by simp) (by simp) (by simp)
        · rw [Double.convert_ok hidx hn]
          simp only [hn, if_false]
          constructor
          · exact fun h => h.only n rfl
          · intro hvalue
            refine ⟨fun m hm => ?_, fun _ => ⟨n, rfl⟩, (by simp), (by simp)⟩
            obtain rfl : n = m := Option.some.inj (Except.ok.inj hm)
            exact hvalue

/-- The row count of a table, in the two members that drivers use. -/
def exactCount (n : Int) : Statistic := ⟨some "t", none, rowCountKey, .int64 n⟩

def approximateCount (q : ℚ) : Statistic := ⟨some "t", none, rowCountKey, .float64 (.finite q)⟩

/-- A catalog with one table in each of these schemas. -/
def catalogOf (schemas : List (String × Statistic)) : List StatisticsBatch :=
  [.ofCatalogs [⟨some "db", schemas.map fun s => ⟨some s.1, [s.2]⟩⟩]]

theorem statisticsIn_catalogOf (schemas : List (String × Statistic)) :
    statisticsIn [⟨some "db", schemas.map fun s => ⟨some s.1, [s.2]⟩⟩] =
      schemas.map fun s => ⟨some "db", some s.1, s.2⟩ := by
  simp only [statisticsIn, List.flatMap_singleton, List.flatMap_map, List.map_singleton]
  exact List.map_eq_flatMap.symm

theorem firstHit_catalogOf (schemas : List (String × Statistic)) :
    firstHit (catalogOf schemas) =
      ((schemas.filterMap fun s => s.2.float64RowCount).map some).head? := by
  rw [firstHit, catalogOf, List.flatMap_singleton, StatisticsBatch.hits_ofCatalogs,
    statisticsIn_catalogOf, List.filterMap_map]
  rfl

theorem rowCounts_catalogOf (t : ScannedTable) (schemas : List (String × Statistic)) :
    rowCounts t (catalogOf schemas) =
      ((schemas.map fun s => ⟨some "db", some s.1, s.2⟩).filter
        (StatisticRow.IsRowCountOf t ·)).map (·.statistic.value) := by
  rw [rowCounts, catalogOf, List.flatMap_singleton, StatisticsBatch.rows_ofCatalogs,
    statisticsIn_catalogOf]

/-- An exact row count of the table is passed over, and with `my_schema` taken as a pattern the row
count of a table in the schema `myXschema` is found first. -/
theorem row_count_of_another_table :
    (¬ BelongsTo ⟨"db", "main", "t"⟩ (catalogOf [("main", exactCount 5)])
      (getTableCardinality (answeringStatistics
        (fun _ => catalogOf [("main", exactCount 5)]) .endOfStream) (some "db") "main" "t")) ∧
    ¬ BelongsTo ⟨"db", "my_schema", "t"⟩
      (catalogOf [("myXschema", approximateCount 7), ("my_schema", approximateCount 3)])
      (getTableCardinality (answeringStatistics (fun _ => catalogOf
        [("myXschema", approximateCount 7), ("my_schema", approximateCount 3)]) .endOfStream)
        (some "db") "my_schema" "t") := by
  constructor
  · intro h
    have hresult : getTableCardinality (answeringStatistics
        (fun _ => catalogOf [("main", exactCount 5)]) .endOfStream) (some "db") "main" "t" =
          .ok none := by
      rw [getTableCardinality_eq, firstHit_catalogOf]
      rfl
    obtain ⟨n, hn⟩ := h.whenever (by rw [rowCounts_catalogOf]; decide)
    rw [hresult] at hn
    cases hn
  · intro h
    have hresult : getTableCardinality (answeringStatistics (fun _ => catalogOf
        [("myXschema", approximateCount 7), ("my_schema", approximateCount 3)]) .endOfStream)
          (some "db") "my_schema" "t" = .ok (some 7) := by
      rw [getTableCardinality_eq, firstHit_catalogOf]
      exact (Double.convert_eq_iff (.finite 7)).mpr ⟨7, rfl, by norm_num, by norm_num [invalidIndex]⟩
    have hcounts : rowCounts ⟨"db", "my_schema", "t"⟩
        (catalogOf [("myXschema", approximateCount 7), ("my_schema", approximateCount 3)]) =
          [.float64 (.finite 3)] := by
      rw [rowCounts_catalogOf]
      rfl
    obtain ⟨value, hvalue, hcount⟩ := h.only 7 hresult
    rw [hcounts, List.mem_singleton] at hvalue
    subst hvalue
    simp [StatisticValue.count, Double.rowCount] at hcount

/-! ## Whether it can be converted -/

/-- **The conversion is in range**, and gives the row count that the value stands for, or no
cardinality if it stands for none. -/
structure ConvertsInRange (hit : Option (Option Double))
    (result : Except CardinalityError (Option Nat)) : Prop where
  truncates : ∀ d, hit = some (some d) → result = .ok d.rowCount
  inRange : result ≠ .error .outOfRange
  valid : result ≠ .error .invalidIndex
  inBuffer : result ≠ .error .outsideBuffer

/-- **When the conversion is in range.**  The first value that passes the test is converted in
range, and the scan of the table is planned, if and only if the value is a number of at least 0 and
below the reserved index, or if there is none. -/
theorem cardinality_converts_iff {σ : Type} (answer : GetStatisticsRequest → List StatisticsBatch)
    (ending : StreamEnd) (delimiter : Delimiter) (c : AdbcCatalog) (schema table : String)
    (arrow : σ) :
    let batches := answer ⟨none, getInternalSchemaName c.noSchemas schema, table, true⟩
    let planned := getScanFunction (answeringStatistics answer ending) (fun _ => .ok arrow)
      delimiter c schema table
    (ConvertsInRange (firstHit batches)
        (getTableCardinality (answeringStatistics answer ending) (catalogArgument c.catalogName)
          (getInternalSchemaName c.noSchemas schema) table) ∧ planned.isOk) ↔
      ∀ hit, firstHit batches = some hit →
        ∃ q, hit = some (.finite q) ∧ 0 ≤ q ∧ q < invalidIndex := by
  intro batches planned
  have hplanned : planned = match getTableCardinality (answeringStatistics answer ending)
        (catalogArgument c.catalogName) (getInternalSchemaName c.noSchemas schema) table with
      | .error error => .error (.cardinality error)
      | .ok cardinality => .ok ⟨arrow, cardinality⟩ := rfl
  rw [hplanned, getTableCardinality_eq]
  generalize firstHit batches = first
  cases first with
  | none =>
    refine iff_of_true ⟨⟨?_, (by simp), (by simp), (by simp)⟩, rfl⟩ ?_
    · intro d hd
      cases hd
    · intro hit hhit
      cases hhit
  | some hit =>
    cases hit with
    | none =>
      refine iff_of_false (fun h => h.1.inBuffer rfl) fun h => ?_
      obtain ⟨q, hq, -⟩ := h none rfl
      cases hq
    | some d =>
      constructor
      · rintro ⟨h, -⟩ hit hhit
        obtain rfl := Option.some.inj hhit
        obtain ⟨q, rfl, hq⟩ := d.convert_eq_iff.mp (h.truncates d rfl)
        exact ⟨q, rfl, hq⟩
      · intro h
        obtain ⟨q, hq, hpos, hlt⟩ := h (some d) rfl
        obtain rfl := Option.some.inj hq
        have hconvert := (Double.convert_eq_iff _).mpr ⟨q, rfl, hpos, hlt⟩
        simp only [hconvert]
        refine ⟨⟨fun d hd => ?_, (by simp), (by simp), (by simp)⟩, rfl⟩
        obtain rfl := Option.some.inj (Option.some.inj hd)
        rfl

/-- A driver that reports a row count of -1, which stands for an unknown one: the conversion is out
of range. -/
theorem unknown_count_out_of_range :
    ¬ ConvertsInRange (firstHit (catalogOf [("main", approximateCount (-1))]))
      (getTableCardinality (answeringStatistics
        (fun _ => catalogOf [("main", approximateCount (-1))]) .endOfStream)
        (some "db") "main" "t") := by
  intro h
  refine h.inRange ?_
  rw [getTableCardinality_eq, firstHit_catalogOf]
  have hidx : (Double.finite (-1)).toIdx = .error .outOfRange := by
    rw [Double.toIdx, truncate]
    norm_num
  exact Double.convert_error hidx

end AdbcClient
