import Mathlib.Data.List.FinRange
import Mathlib.Data.List.TakeWhile
import Mathlib.Logic.Function.Basic
import AdbcClient.ColumnData
import AdbcClient.QueryText
import AdbcClient.Runs

/-!
# Scans

A scan of `read_adbc` or of an attached table (`adbc_scan.cpp`): `ProduceStream` sends
the query, the threads of the scan take the arrays of its answer from the shared
stream, and `AdbcScanFunction` fills one chunk after the other from them.

What a scan is asked for is `column_ids`, a list of columns of the bound table and of
row-ids.  The names in the query leave the row-ids out, and the positions that
`ArrowToDuckDB` reads do not.  `scan_agrees_iff` says what this costs: the chunks of
`read_adbc`, which does not push the projection down, always hold the columns asked for,
those of an attached table exactly if no row-id comes before a column.

What DuckDB does for a scan is the structure `ArrowTableFunction`, whose laws are all that
the results rely on; `duckdbArrow` is the instance that meets them the way DuckDB does.  The
values of a row are left out: a row is its place in an array of the stream, and a child of
an array stands for the column of the remote table that it comes from.
-/
namespace AdbcClient.ArrowScan
open Runs AdbcArrowStreamFactory

/-- An entry of `column_ids`, for a table with `n` columns. -/
inductive ColumnId (n : Nat) where
  | column (c : Fin n)
  | rowId
  deriving DecidableEq, Repr

/-- What a child of an array holds: a column of the remote table, or the constant that
a query without columns selects. -/
inductive Child (n : Nat) where
  | column (c : Fin n)
  | one
  deriving DecidableEq, Repr

/-- The answer to a query: its schema, and the lengths of the arrays still to come. -/
structure ArrowArrayStream (n : Nat) where
  children : List (Child n)
  lengths : List Nat
  deriving DecidableEq, Repr

/-- An array of a stream, and the number it had in it. -/
structure StreamArray (n : Nat) where
  index : Nat
  length : Nat
  children : List (Child n)
  deriving DecidableEq, Repr

/-- What a column of a chunk is filled from. -/
inductive Filled (n : Nat) where
  | untouched
  | child (source : Child n)
  /-- A child that the array does not have. -/
  | outside
  deriving DecidableEq, Repr

/-- A chunk that `ArrowToDuckDB` has filled: its size, the rows that were read into it, each
by the number of its array and its place there, and what its columns are filled from. -/
structure ScannedChunk (n : Nat) where
  size : Nat
  rows : List (Nat × Nat)
  columns : List (Filled n)
  deriving DecidableEq, Repr

/-- `DataChunk::ReferenceColumns`: the rows of another chunk, and some of its columns. -/
def ScannedChunk.referenceColumns {n : Nat} (chunk : ScannedChunk n) (ids : List Nat) :
    ScannedChunk n where
  size := chunk.size
  rows := chunk.rows
  columns := ids.map (fun p => chunk.columns.getD p .untouched)

/-! ## What DuckDB asks for -/

/-- The flags of a `TableFunction`, with DuckDB's defaults.  No filters come with a request
to a function that leaves `filter_pushdown` off, as both functions do. -/
structure TableFunction where
  projectionPushdown : Bool := false
  filterPrune : Bool := false

/-- `LoadInternal`. -/
def readAdbcFunction : TableFunction := { projectionPushdown := true }

/-- `GetScanFunction`. -/
def scanAdbcFunction : TableFunction := { projectionPushdown := true }

/-- `TableFunctionInitInput`.  A function without projection pushdown is asked for all
columns.  Columns that only filters need are dropped from the output through
`projection_ids`, for a function that declares it can do this. -/
structure Request (f : TableFunction) (n : Nat) where
  columnIds : List (ColumnId n)
  projectionIds : List Nat
  whole : f.projectionPushdown = false → columnIds = (List.finRange n).map .column
  unpruned : f.filterPrune = false → projectionIds = []

def ColumnId.column? {n : Nat} : ColumnId n → Option (Fin n)
  | .column c => some c
  | .rowId => none

/-- The columns among the entries of `column_ids`. -/
def realColumns {n : Nat} (ids : List (ColumnId n)) : List (Fin n) :=
  ids.filterMap ColumnId.column?

/-- The names of the requested columns, which leaves out the row-ids. -/
def projectedColumns {n : Nat} (names : Fin n → String) (ids : List (ColumnId n)) : List String :=
  (realColumns ids).map names

/-! ## What DuckDB does for a scan -/

/-- `ArrowScanGlobalState`, with the number of arrays that the stream has given so far. -/
structure ArrowScanGlobalState (n : Nat) where
  stream : ArrowArrayStream n
  fetched : Nat
  projectionIds : List Nat
  deriving DecidableEq, Repr

/-- `ArrowScanLocalState`. -/
structure ArrowScanLocalState (n : Nat) where
  columnIds : List (ColumnId n)
  chunk : StreamArray n
  chunkOffset : Nat
  deriving DecidableEq, Repr

section Scan
variable {n : Nat}

def ArrowScanGlobalState.canRemoveFilterColumns (g : ArrowScanGlobalState n) : Bool :=
  !g.projectionIds.isEmpty

/-- The rows of the array that a thread has, from its `chunk_offset` on. -/
def ArrowScanLocalState.rowsFrom (l : ArrowScanLocalState n) (size : Nat) : List (Nat × Nat) :=
  (List.range' l.chunkOffset size).map (l.chunk.index, ·)

/-- What `ArrowScanParallelStateNext` may do, under the lock of the global state: take the
next array that has rows, from its first row on, or, if no array that is left has any, come
to the end of the stream. -/
inductive NextArray (g : ArrowScanGlobalState n) (l : ArrowScanLocalState n) :
    Bool → ArrowScanGlobalState n → ArrowScanLocalState n → Prop where
  | array {skipped rest : List Nat} {length : Nat}
      (hlengths : g.stream.lengths = skipped ++ length :: rest) (hempty : ∀ m ∈ skipped, m = 0)
      (hrows : 0 < length) :
      NextArray g l true
        { g with
          stream := { g.stream with lengths := rest }
          fetched := g.fetched + skipped.length + 1 }
        { l with
          chunk := ⟨g.fetched + skipped.length, length, g.stream.children⟩
          chunkOffset := 0 }
  | exhausted {l' : ArrowScanLocalState n} (hempty : ∀ m ∈ g.stream.lengths, m = 0)
      (hcolumns : l'.columnIds = l.columnIds) (hchunk : l'.chunk.length ≤ l'.chunkOffset) :
      NextArray g l false
        { g with
          stream := { g.stream with lengths := [] }
          fetched := g.fetched + g.stream.lengths.length }
        l'

/-- The child that `ArrowToDuckDB` reads for position `i` of the output. -/
def fill (children : List (Child n)) (isProjected : Bool) (i : Nat) : ColumnId n → Filled n
  | .rowId => .untouched
  | .column c =>
    match children[if isProjected then i else c.val]? with
    | some source => .child source
    | none => .outside

/-- The functions of DuckDB's `ArrowTableFunction` that a scan is made of, with what is
assumed of them. -/
structure ArrowTableFunction (n : Nat) where
  /-- `ArrowScanInitGlobal`: the stream for the names of the columns, and the request. -/
  initGlobal : (List String → ArrowArrayStream n) → (Fin n → String) → List (ColumnId n) →
    List Nat → ArrowScanGlobalState n
  /-- `ArrowScanInitLocal`: no local state for a thread that finds the stream exhausted. -/
  initLocal : ArrowScanGlobalState n → List (ColumnId n) →
    ArrowScanGlobalState n × Option (ArrowScanLocalState n)
  /-- `ArrowScanParallelStateNext`. -/
  parallelStateNext : ArrowScanGlobalState n → ArrowScanLocalState n →
    Bool × ArrowScanGlobalState n × ArrowScanLocalState n
  /-- `ArrowToDuckDB`, into a chunk of some size and with some number of columns. -/
  arrowToDuckDB : ArrowScanLocalState n → Nat → Nat → Bool → ScannedChunk n
  initGlobal_eq : ∀ produce names ids projectionIds,
    initGlobal produce names ids projectionIds =
      ⟨produce (projectedColumns names ids), 0, projectionIds⟩
  initLocal_next : ∀ g ids, ∃ l more l', l.columnIds = ids ∧
    NextArray g l more (initLocal g ids).1 l' ∧
    (initLocal g ids).2 = if more then some l' else none
  parallelStateNext_next : ∀ {g l more g' l'}, parallelStateNext g l = (more, g', l') →
    NextArray g l more g' l'
  size_arrowToDuckDB : ∀ l size width isProjected,
    (arrowToDuckDB l size width isProjected).size = size
  rows_arrowToDuckDB : ∀ l size width isProjected, l.chunkOffset + size ≤ l.chunk.length →
    (arrowToDuckDB l size width isProjected).rows = l.rowsFrom size
  columns_arrowToDuckDB : ∀ l size width isProjected,
    (arrowToDuckDB l size width isProjected).columns =
      (l.columnIds.take width).mapIdx (fill l.chunk.children isProjected)

/-! ## The scan -/

/-- `ProduceStream`. -/
def produceStream (execute : String → ArrowArrayStream n) (factory : AdbcArrowStreamFactory)
    (columns : List String) : ArrowArrayStream n :=
  execute (factory.applyProjectionPushdown columns).queryText

/-- How many columns the output chunk has. -/
def outputWidth (g : ArrowScanGlobalState n) (l : ArrowScanLocalState n) : Nat :=
  if g.projectionIds.isEmpty then l.columnIds.length else g.projectionIds.length

variable (A : ArrowTableFunction n)

/-- The number of rows that a call reads of the array a thread has. -/
def ArrowScanLocalState.outputSize (l : ArrowScanLocalState n) : Nat :=
  min standardVectorSize (l.chunk.length - l.chunkOffset)

/-- The end of `AdbcScanFunction`: the output is filled with the requested columns. -/
def fillOutput (isProjected : Bool) (g : ArrowScanGlobalState n) (l : ArrowScanLocalState n) :
    ScannedChunk n :=
  if g.canRemoveFilterColumns && !isProjected then
    -- every requested column is converted, and the output refers to some of them
    (A.arrowToDuckDB l l.outputSize l.columnIds.length false).referenceColumns g.projectionIds
  else A.arrowToDuckDB l l.outputSize (outputWidth g l) isProjected

/-- `AdbcScanFunction`, which leaves the output empty or fills it, and counts in
`lines_read`. -/
def adbcScanFunction (isProjected : Bool) (g : ArrowScanGlobalState n) (linesRead : Nat) :
    Option (ArrowScanLocalState n) →
      Option (ScannedChunk n) × ArrowScanGlobalState n × Option (ArrowScanLocalState n) × Nat
  | none => (none, g, none, linesRead)
  | some l =>
    match (if l.chunkOffset ≥ l.chunk.length then A.parallelStateNext g l else (true, g, l)) with
    | (false, g, l) => (none, g, some l, linesRead)
    | (true, g, l) =>
      let output := fillOutput A isProjected g l
      (some output, g, some { l with chunkOffset := l.chunkOffset + output.size },
        linesRead + l.outputSize)

end Scan

/-! ## The two kinds of scan -/

/-- What is scanned: a query that the user wrote, or a table of an attached database. -/
inductive AdbcScan where
  | readAdbc (queryText : String)
  | attached (table : String) (delimiter : Delimiter)

namespace AdbcScan

def function : AdbcScan → TableFunction
  | readAdbc _ => readAdbcFunction
  | attached _ _ => scanAdbcFunction

def factory : AdbcScan → AdbcArrowStreamFactory
  | readAdbc queryText => ofQuery queryText
  | attached table delimiter => ofTable table delimiter

variable {n : Nat} (execute : String → ArrowArrayStream n) (names : Fin n → String)

/-- What a scan relies on in the remote: a query of `read_adbc` is answered with the
columns it was bound with, one on a table with the selected columns, in their order. -/
def Answered : AdbcScan → Prop
  | readAdbc queryText => (execute queryText).children = (List.finRange n).map .column
  | attached table delimiter => ∀ columns : List (Fin n), columns ≠ [] →
      (produceStream execute (ofTable table delimiter) (columns.map names)).children =
        columns.map .column

end AdbcScan

/-- The state that the threads of a scan share, and the local one of each. -/
structure ScanState (Thread : Type) (n : Nat) where
  globalState : ArrowScanGlobalState n
  localState : Thread → Option (ArrowScanLocalState n)
  linesRead : Nat

/-- What a thread of a scan does. -/
inductive ScanEvent (Thread : Type) (n : Nat) where
  | initLocal (t : Thread)
  | scan (t : Thread) (output : Option (ScannedChunk n))

section System
variable {n : Nat} (A : ArrowTableFunction n) (Thread : Type) [DecidableEq Thread]
  (execute : String → ArrowArrayStream n) (names : Fin n → String) (scan : AdbcScan)
  (request : Request scan.function n)

/-- The global state that a scan starts with. -/
def scanInit : ArrowScanGlobalState n :=
  A.initGlobal (produceStream execute scan.factory) names request.columnIds request.projectionIds

/-- The runs of a scan, under any scheduling of its threads. -/
def scanSystem : TransitionSystem (ScanState Thread n) (ScanEvent Thread n) where
  initial s := s = ⟨scanInit A execute names scan request, fun _ => none, 0⟩
  step s event s' :=
    match event with
    | .initLocal t =>
      let r := A.initLocal s.globalState request.columnIds
      s' = ⟨r.1, Function.update s.localState t r.2, s.linesRead⟩
    | .scan t output =>
      let r := adbcScanFunction A scan.factory.projectionPushdown s.globalState s.linesRead
        (s.localState t)
      output = r.1 ∧ s' = ⟨r.2.1, Function.update s.localState t r.2.2.1, r.2.2.2⟩

end System

/-- The chunk holds what was asked for, and no child was read that the array lacks. -/
structure ProjectionAgrees {n : Nat} (ids : List (ColumnId n)) (output : ScannedChunk n) :
    Prop where
  filled : ∀ (i : Nat) (c : Fin n), ids[i]? = some (.column c) →
    output.columns[i]? = some (.child (.column c))
  inside : .outside ∉ output.columns

/-- No row-id comes before a column, in the order in which columns are requested. -/
def RowIdsLast {n : Nat} (ids : List (ColumnId n)) : Prop :=
  ids.Pairwise (fun a b => a = .rowId → b = .rowId)

instance {n : Nat} (ids : List (ColumnId n)) : Decidable (RowIdsLast ids) :=
  inferInstanceAs (Decidable (ids.Pairwise _))

/-! ## The positions -/

section Positions
variable {n : Nat}

/-- The last of the columns is not before the position it would have on its own. -/
theorem exists_length_le {ids : List (ColumnId n)} (h : realColumns ids ≠ []) :
    ∃ (i : Nat) (c : Fin n), ids[i]? = some (.column c) ∧ (realColumns ids).length ≤ i + 1 := by
  induction ids with
  | nil => exact absurd rfl h
  | cons id ids ih =>
    by_cases hrest : realColumns ids = []
    · cases id with
      | column c =>
        refine ⟨0, c, rfl, ?_⟩
        show (c :: realColumns ids).length ≤ _
        rw [hrest]
        exact Nat.le_refl 1
      | rowId => exact absurd hrest h
    · obtain ⟨i, c, hi, hlength⟩ := ih hrest
      refine ⟨i + 1, c, hi, ?_⟩
      cases id with
      | column c' => exact Nat.succ_le_succ hlength
      | rowId => exact Nat.le_succ_of_le hlength

theorem realColumns_eq_nil_iff {ids : List (ColumnId n)} :
    realColumns ids = [] ↔ ∀ id ∈ ids, id = .rowId := by
  rw [realColumns, List.filterMap_eq_nil_iff]
  refine forall₂_congr fun id _ => ?_
  cases id <;> simp [ColumnId.column?]

theorem realColumns_ne_nil {ids : List (ColumnId n)} {i : Nat} {c : Fin n}
    (h : ids[i]? = some (.column c)) : realColumns ids ≠ [] := by
  intro hnil
  have hrowId := realColumns_eq_nil_iff.mp hnil _ (List.mem_of_getElem? h)
  cases hrowId

/-- **Leaving the row-ids out keeps the positions of the columns** exactly if the
row-ids come last. -/
theorem realColumns_getElem?_iff (ids : List (ColumnId n)) :
    (∀ (i : Nat) (c : Fin n), ids[i]? = some (.column c) → (realColumns ids)[i]? = some c) ↔
      RowIdsLast ids := by
  induction ids with
  | nil => simp [RowIdsLast]
  | cons id ids ih =>
    rw [RowIdsLast, List.pairwise_cons]
    cases id with
    | column c =>
      constructor
      · intro h
        exact ⟨fun _ _ => nofun, ih.mp fun i c' hi => h (i + 1) c' hi⟩
      · rintro ⟨-, hlast⟩ i c' hi
        cases i with
        | zero =>
          obtain rfl : c = c' := by simpa using hi
          rfl
        | succ i => exact ih.mpr hlast i c' hi
    | rowId =>
      constructor
      · intro h
        have hnone : realColumns ids = [] := by
          by_contra hne
          obtain ⟨i, c, hi, hlength⟩ := exists_length_le hne
          -- the last column has moved to the front, and its place is taken by none
          have hshifted : (realColumns ids)[i + 1]? = some c := h (i + 1) c hi
          rw [List.getElem?_eq_none hlength] at hshifted
          cases hshifted
        have hall := realColumns_eq_nil_iff.mp hnone
        exact ⟨fun b hb _ => hall b hb,
          List.pairwise_of_forall_mem_list fun _ _ b hb _ => hall b hb⟩
      · rintro ⟨hall, -⟩ i c hi
        cases i with
        | zero => cases hi
        | succ i =>
          have hrowId := hall _ (List.mem_of_getElem? (l := ids) hi) rfl
          cases hrowId

/-- A chunk agrees if every child that is read holds the column asked for. -/
theorem agrees_iff_children (ids : List (ColumnId n)) (children : List (Child n))
    (isProjected : Bool) (size : Nat) (rows : List (Nat × Nat)) :
    ProjectionAgrees ids ⟨size, rows, ids.mapIdx (fill children isProjected)⟩ ↔
      ∀ (i : Nat) (c : Fin n), ids[i]? = some (.column c) →
        children[if isProjected then i else c.val]? = some (.column c) := by
  have hposition : ∀ (i : Nat) (id : ColumnId n), ids[i]? = some id →
      (ids.mapIdx (fill children isProjected))[i]? = some (fill children isProjected i id) := by
    intro i id hi
    rw [List.getElem?_mapIdx, hi, Option.map_some]
  constructor
  · intro h i c hi
    have hfilled := h.filled i c hi
    rw [hposition i _ hi, Option.some.injEq, fill] at hfilled
    split at hfilled
    · rename_i source hsource
      rw [hsource, Filled.child.inj hfilled]
    · cases hfilled
  · intro h
    constructor
    · intro i c hi
      show (ids.mapIdx _)[i]? = _
      rw [hposition i _ hi, fill, h i c hi]
    · intro hmem
      obtain ⟨i, hlt, houtside⟩ := List.mem_mapIdx.mp hmem
      cases hid : ids[i] with
      | rowId =>
        rw [hid] at houtside
        cases houtside
      | column c =>
        rw [hid, fill, h i c (List.getElem?_eq_some_iff.mpr ⟨hlt, hid⟩)] at houtside
        cases houtside

end Positions

/-! ## What a call does -/

section Calls
variable {n : Nat} {A : ArrowTableFunction n}

/-- The local state after rows have been read. -/
def ArrowScanLocalState.advance (l : ArrowScanLocalState n) (size : Nat) : ArrowScanLocalState n :=
  { l with chunkOffset := l.chunkOffset + size }

/-- **What a call of `AdbcScanFunction` can do**: output rows of the array the thread has,
or, with none left, of the next one, or nothing. -/
theorem adbcScanFunction_cases (isProjected : Bool) (g : ArrowScanGlobalState n) (linesRead : Nat)
    (l : ArrowScanLocalState n) :
    (l.chunkOffset < l.chunk.length ∧
      adbcScanFunction A isProjected g linesRead (some l) =
        (some (fillOutput A isProjected g l), g,
          some (l.advance (fillOutput A isProjected g l).size), linesRead + l.outputSize)) ∨
    (l.chunk.length ≤ l.chunkOffset ∧ ∃ g' l', NextArray g l true g' l' ∧
      adbcScanFunction A isProjected g linesRead (some l) =
        (some (fillOutput A isProjected g' l'), g',
          some (l'.advance (fillOutput A isProjected g' l').size), linesRead + l'.outputSize)) ∨
    (l.chunk.length ≤ l.chunkOffset ∧ ∃ g' l', NextArray g l false g' l' ∧
      adbcScanFunction A isProjected g linesRead (some l) = (none, g', some l', linesRead)) := by
  by_cases hoffset : l.chunkOffset ≥ l.chunk.length
  · rcases hnext : A.parallelStateNext g l with ⟨more, g', l'⟩
    have harray := A.parallelStateNext_next hnext
    cases more with
    | true =>
      refine .inr (.inl ⟨hoffset, g', l', harray, ?_⟩)
      simp only [adbcScanFunction, if_pos hoffset, hnext]
      rfl
    | false =>
      refine .inr (.inr ⟨hoffset, g', l', harray, ?_⟩)
      simp only [adbcScanFunction, if_pos hoffset, hnext]
  · refine .inl ⟨Nat.lt_of_not_le hoffset, ?_⟩
    simp only [adbcScanFunction, if_neg hoffset]
    rfl

/-- What is left of an array is not left out of a chunk. -/
theorem outputSize_bounds {l : ArrowScanLocalState n} (hmore : l.chunkOffset < l.chunk.length) :
    0 < l.outputSize ∧ l.outputSize ≤ standardVectorSize ∧
      l.chunkOffset + l.outputSize ≤ l.chunk.length := by
  have hpos : 0 < standardVectorSize := by decide
  have hsize : l.outputSize = min standardVectorSize (l.chunk.length - l.chunkOffset) := rfl
  omega

/-- **An output holds the next rows** of the array that the thread has. -/
theorem rows_fillOutput (isProjected : Bool) (g : ArrowScanGlobalState n)
    {l : ArrowScanLocalState n} (hmore : l.chunkOffset < l.chunk.length) :
    (fillOutput A isProjected g l).size = l.outputSize ∧
      (fillOutput A isProjected g l).rows = l.rowsFrom l.outputSize := by
  obtain ⟨-, -, hfits⟩ := outputSize_bounds hmore
  rw [fillOutput]
  split
  · exact ⟨A.size_arrowToDuckDB .., A.rows_arrowToDuckDB _ _ _ _ hfits⟩
  · exact ⟨A.size_arrowToDuckDB .., A.rows_arrowToDuckDB _ _ _ _ hfits⟩

/-- Without columns that only filters need, an output is filled position after position. -/
theorem columns_fillOutput (isProjected : Bool) {g : ArrowScanGlobalState n}
    (l : ArrowScanLocalState n) (hids : g.projectionIds = []) :
    (fillOutput A isProjected g l).columns =
      l.columnIds.mapIdx (fill l.chunk.children isProjected) := by
  simp [fillOutput, ArrowScanGlobalState.canRemoveFilterColumns, hids, outputWidth,
    A.columns_arrowToDuckDB]

end Calls

/-! ## The runs -/

section Runs
variable {n : Nat} {A : ArrowTableFunction n} {Thread : Type} [DecidableEq Thread]
  {execute : String → ArrowArrayStream n} {names : Fin n → String} {scan : AdbcScan}
  {request : Request scan.function n}

theorem AdbcScan.projectionIds_eq_nil (request : Request scan.function n) :
    request.projectionIds = [] :=
  request.unpruned (by cases scan <;> rfl)

/-- What the query of a scan is answered with. -/
def received (execute : String → ArrowArrayStream n) (names : Fin n → String) (scan : AdbcScan)
    (ids : List (ColumnId n)) : List (Child n) :=
  (produceStream execute scan.factory (projectedColumns names ids)).children

/-- The local state of a thread, if it has one, is that of this scan: it was asked for these
columns, and an array with rows left to read has these children. -/
def Holds (children : List (Child n)) (ids : List (ColumnId n))
    (localState : Option (ArrowScanLocalState n)) : Prop :=
  ∀ l, localState = some l → l.columnIds = ids ∧
    (l.chunkOffset < l.chunk.length → l.chunk.children = children)

/-- What stays as it is during a scan: the children of the arrays, and the request. -/
structure Scanning (children : List (Child n)) (ids : List (ColumnId n))
    (s : ScanState Thread n) : Prop where
  stream : s.globalState.stream.children = children
  projectionIds : s.globalState.projectionIds = []
  locals : ∀ t, Holds children ids (s.localState t)

/-- Asking for an array leaves the schema of the stream and the request as they are. -/
theorem NextArray.keeps {g g' : ArrowScanGlobalState n} {l l' : ArrowScanLocalState n}
    {more : Bool} (hnext : NextArray g l more g' l') :
    g'.stream.children = g.stream.children ∧ g'.projectionIds = g.projectionIds ∧
      Holds g.stream.children l.columnIds (some l') := by
  cases hnext with
  | array =>
    refine ⟨rfl, rfl, ?_⟩
    rintro l ⟨⟩
    exact ⟨rfl, fun _ => rfl⟩
  | exhausted _ hcolumns hchunk =>
    refine ⟨rfl, rfl, ?_⟩
    rintro l ⟨⟩
    exact ⟨hcolumns, fun hmore => absurd hmore (Nat.not_lt_of_le hchunk)⟩

/-- A thread that starts with what `ArrowScanInitLocal` finds is in the scan. -/
theorem initLocal_keeps (A : ArrowTableFunction n) (g : ArrowScanGlobalState n)
    (ids : List (ColumnId n)) :
    (A.initLocal g ids).1.stream.children = g.stream.children ∧
      (A.initLocal g ids).1.projectionIds = g.projectionIds ∧
      Holds g.stream.children ids (A.initLocal g ids).2 := by
  obtain ⟨l, more, l', rfl, hnext, hlocal⟩ := A.initLocal_next g ids
  obtain ⟨hstream, hids, hnew⟩ := hnext.keeps
  refine ⟨hstream, hids, ?_⟩
  rw [hlocal]
  cases more with
  | true => exact hnew
  | false => exact fun _ h => nomatch h

/-- **One call of `AdbcScanFunction`**, which fills position after position. -/
theorem adbcScanFunction_spec {isProjected : Bool} {g g' : ArrowScanGlobalState n}
    {linesRead linesRead' : Nat} {localState localState' : Option (ArrowScanLocalState n)}
    {ids : List (ColumnId n)} {output : Option (ScannedChunk n)}
    (hcall : adbcScanFunction A isProjected g linesRead localState =
      (output, g', localState', linesRead'))
    (hids : g.projectionIds = []) (hlocal : Holds g.stream.children ids localState) :
    g'.stream.children = g.stream.children ∧ g'.projectionIds = [] ∧
      Holds g.stream.children ids localState' ∧
      ∀ chunk, output = some chunk →
        chunk.columns = ids.mapIdx (fill g.stream.children isProjected) := by
  -- what is read and what is left, of an array with rows
  have hread : ∀ {g₁ : ArrowScanGlobalState n} {l₁ : ArrowScanLocalState n},
      g₁.projectionIds = [] → l₁.columnIds = ids → l₁.chunk.children = g.stream.children →
      Holds g.stream.children ids
          (some (l₁.advance (fillOutput A isProjected g₁ l₁).size)) ∧
        (fillOutput A isProjected g₁ l₁).columns =
          ids.mapIdx (fill g.stream.children isProjected) := by
    intro g₁ l₁ hids₁ hcolumns hchunk
    refine ⟨?_, ?_⟩
    · rintro l ⟨⟩
      exact ⟨hcolumns, fun _ => hchunk⟩
    · rw [columns_fillOutput isProjected l₁ hids₁, hcolumns, hchunk]
  cases localState with
  | none =>
    obtain ⟨rfl, rfl, rfl, rfl⟩ := by simpa [adbcScanFunction] using hcall
    exact ⟨rfl, hids, hlocal, nofun⟩
  | some l =>
    obtain ⟨hcolumns, hchunk⟩ := hlocal l rfl
    rcases adbcScanFunction_cases isProjected g linesRead l with
      ⟨hmore, he⟩ | ⟨-, g₁, l₁, hnext, he⟩ | ⟨-, g₁, l₁, hnext, he⟩
    · obtain ⟨rfl, rfl, rfl, rfl⟩ := by simpa using he.symm.trans hcall
      obtain ⟨hholds, hfilled⟩ := hread hids hcolumns (hchunk hmore)
      exact ⟨rfl, hids, hholds, fun chunk h => Option.some.inj h ▸ hfilled⟩
    · obtain ⟨rfl, rfl, rfl, rfl⟩ := by simpa using he.symm.trans hcall
      obtain ⟨hstream, hids', hnew⟩ := hnext.keeps
      obtain ⟨hcolumns', hchunk'⟩ := hnew _ rfl
      have hchildren : l₁.chunk.children = g.stream.children := by
        cases hnext
        rfl
      obtain ⟨hholds, hfilled⟩ := hread (hids'.trans hids) (hcolumns'.trans hcolumns) hchildren
      exact ⟨hstream, hids'.trans hids, hholds, fun chunk h => Option.some.inj h ▸ hfilled⟩
    · obtain ⟨rfl, rfl, rfl, rfl⟩ := by simpa using he.symm.trans hcall
      obtain ⟨hstream, hids', hnew⟩ := hnext.keeps
      exact ⟨hstream, hids'.trans hids, hcolumns ▸ hnew, nofun⟩

/-- A thread that moves leaves the local states of the others. -/
theorem holds_update {children : List (Child n)} {ids : List (ColumnId n)}
    {localState : Thread → Option (ArrowScanLocalState n)} (t : Thread)
    {l : Option (ArrowScanLocalState n)} (hl : Holds children ids l)
    (hlocals : ∀ t', Holds children ids (localState t')) (t' : Thread) :
    Holds children ids (Function.update localState t l t') := by
  by_cases h : t' = t
  · rw [h, Function.update_self]
    exact hl
  · rw [Function.update_of_ne h]
    exact hlocals t'

/-- **Every state of a scan** reads arrays of one schema for one request. -/
theorem scanning {s : ScanState Thread n}
    (hs : (scanSystem A Thread execute names scan request).Reachable s) :
    Scanning (received execute names scan request.columnIds) request.columnIds s := by
  induction hs with
  | initial h =>
    obtain rfl := h
    refine ⟨?_, ?_, fun _ => nofun⟩
    · simp only [scanInit, A.initGlobal_eq]
      rfl
    · simp only [scanInit, A.initGlobal_eq]
      exact AdbcScan.projectionIds_eq_nil request
  | @step s s' event _ hstep ih =>
    obtain ⟨hchildren, hids, hlocals⟩ := ih
    cases event with
    | initLocal t =>
      obtain rfl := hstep
      obtain ⟨hstream, hids', hnew⟩ := initLocal_keeps A s.globalState request.columnIds
      rw [hchildren] at hstream hnew
      exact ⟨hstream, hids'.trans hids, holds_update t hnew hlocals⟩
    | scan t output =>
      obtain ⟨-, rfl⟩ := hstep
      have hlocal := hlocals t
      rw [← hchildren] at hlocal
      obtain ⟨hstream, hids', hnew, -⟩ := adbcScanFunction_spec rfl hids hlocal
      rw [hchildren] at hstream hnew
      exact ⟨hstream, hids', holds_update t hnew hlocals⟩

/-- **What a chunk of a scan is filled from.** -/
theorem scanned_columns {s s' : ScanState Thread n} {t : Thread} {output : ScannedChunk n}
    (hs : (scanSystem A Thread execute names scan request).Reachable s)
    (hstep : (scanSystem A Thread execute names scan request).step s (.scan t (some output)) s') :
    output.columns = request.columnIds.mapIdx
      (fill (received execute names scan request.columnIds) scan.factory.projectionPushdown) := by
  obtain ⟨hchildren, hids, hlocals⟩ := scanning hs
  obtain ⟨houtput, -⟩ := hstep
  have hlocal := hlocals t
  rw [← hchildren] at hlocal
  obtain ⟨-, -, -, hcolumns⟩ := adbcScanFunction_spec rfl hids hlocal
  rw [hcolumns output houtput.symm, hchildren]

/-- **When the chunks of a scan hold the columns asked for.**  Every chunk that a scan outputs, in
whatever state it has got to, holds in each place the column that was requested there: always for
`read_adbc`, and for an attached table exactly if the request has no row-id before a column. -/
theorem scan_agrees_iff {s s' : ScanState Thread n} {t : Thread} {output : ScannedChunk n}
    (hanswered : scan.Answered execute names)
    (hs : (scanSystem A Thread execute names scan request).Reachable s)
    (hstep : (scanSystem A Thread execute names scan request).step s (.scan t (some output)) s') :
    ProjectionAgrees request.columnIds output ↔
      (scan.factory.projectionPushdown = true → RowIdsLast request.columnIds) := by
  have hcolumns := scanned_columns hs hstep
  obtain ⟨size, rows, columns⟩ := output
  obtain rfl := hcolumns
  rw [agrees_iff_children]
  cases scan with
  | readAdbc queryText =>
    refine iff_of_true (fun i c _ => ?_) nofun
    have hreceived : received execute names (.readAdbc queryText) request.columnIds =
        (List.finRange n).map .column := hanswered
    simp [AdbcScan.factory, ofQuery, hreceived]
  | attached table delimiter =>
    have hpushdown : (AdbcScan.attached table delimiter).factory.projectionPushdown = true := rfl
    rw [hpushdown, ← realColumns_getElem?_iff]
    simp only [if_true, forall_const]
    refine forall₃_congr fun i c hi => ?_
    have hreceived : received execute names (.attached table delimiter) request.columnIds =
        (realColumns request.columnIds).map .column :=
      hanswered _ (realColumns_ne_nil hi)
    rw [hreceived, List.getElem?_map]
    cases (realColumns request.columnIds)[i]? <;> simp

end Runs

/-! ## The functions as DuckDB has them -/

section DuckDB
variable {n : Nat}

/-- `ArrowScanParallelStateNext`. -/
def parallelStateNext (g : ArrowScanGlobalState n) (l : ArrowScanLocalState n) :
    Bool × ArrowScanGlobalState n × ArrowScanLocalState n :=
  let skipped := g.stream.lengths.takeWhile (· == 0)
  match g.stream.lengths.dropWhile (· == 0) with
  | [] =>
    (false, ⟨{ g.stream with lengths := [] }, g.fetched + g.stream.lengths.length,
        g.projectionIds⟩,
      { l with chunk := ⟨g.fetched + g.stream.lengths.length, 0, g.stream.children⟩
               chunkOffset := 0 })
  | length :: rest =>
    (true, ⟨{ g.stream with lengths := rest }, g.fetched + skipped.length + 1, g.projectionIds⟩,
      { l with chunk := ⟨g.fetched + skipped.length, length, g.stream.children⟩
               chunkOffset := 0 })

theorem parallelStateNext_next {g g' : ArrowScanGlobalState n} {l l' : ArrowScanLocalState n}
    {more : Bool} (hnext : parallelStateNext g l = (more, g', l')) : NextArray g l more g' l' := by
  have hsplit := List.takeWhile_append_dropWhile (p := (· == 0)) (l := g.stream.lengths)
  have hzero : ∀ m ∈ g.stream.lengths.takeWhile (· == 0), m = 0 := fun m hm => by
    simpa using List.mem_takeWhile_imp hm
  cases hrest : g.stream.lengths.dropWhile (· == 0) with
  | nil =>
    rw [hrest, List.append_nil] at hsplit
    simp only [parallelStateNext, hrest] at hnext
    obtain ⟨rfl, rfl, rfl⟩ := by simpa using hnext
    exact .exhausted (hsplit ▸ hzero) rfl (Nat.le_refl 0)
  | cons length rest =>
    have hne : length ≠ 0 := by
      have hhead := List.head_dropWhile_not (p := (· == 0)) (l := g.stream.lengths)
        (by rw [hrest]; simp)
      simpa [hrest] using hhead
    rw [hrest] at hsplit
    simp only [parallelStateNext, hrest] at hnext
    obtain ⟨rfl, rfl, rfl⟩ := by simpa using hnext
    exact .array hsplit.symm hzero (Nat.pos_of_ne_zero hne)

/-- The functions of DuckDB as the scan uses them, which have the laws that it relies on. -/
def duckdbArrow (n : Nat) : ArrowTableFunction n where
  initGlobal produce names ids projectionIds :=
    ⟨produce (projectedColumns names ids), 0, projectionIds⟩
  initLocal g ids :=
    match parallelStateNext g ⟨ids, ⟨0, 0, g.stream.children⟩, 0⟩ with
    | (true, g, l) => (g, some l)
    | (false, g, _) => (g, none)
  parallelStateNext := parallelStateNext
  arrowToDuckDB l size width isProjected :=
    ⟨size, l.rowsFrom size, (l.columnIds.take width).mapIdx (fill l.chunk.children isProjected)⟩
  initGlobal_eq _ _ _ _ := rfl
  initLocal_next g ids := by
    rcases hnext : parallelStateNext g ⟨ids, ⟨0, 0, g.stream.children⟩, 0⟩ with ⟨more, g', l'⟩
    refine ⟨⟨ids, ⟨0, 0, g.stream.children⟩, 0⟩, more, l', rfl, ?_, ?_⟩
    · cases more <;> exact parallelStateNext_next hnext
    · cases more <;> rfl
  parallelStateNext_next := parallelStateNext_next
  size_arrowToDuckDB _ _ _ _ := rfl
  rows_arrowToDuckDB _ _ _ _ _ := rfl
  columns_arrowToDuckDB _ _ _ _ := rfl

end DuckDB

/-! ## A remote that reads its queries -/

section Remote
variable {n : Nat} (d : Delimiter) (noSchemas : Bool) (names : Fin n → String)

/-- The column of a table with this name. -/
def findColumn (name : List Char) : Option (Fin n) :=
  (List.finRange n).find? (fun c => (names c).toList == name)

/-- A remote with one table.  It looks the names of a query up, and answers `SELECT *`
with all columns. -/
def answerSelect (lengths : List Nat) (text : String) : ArrowArrayStream n where
  children :=
    match readSelect d noSchemas text.toList with
    | none => (List.finRange n).map .column
    | some query =>
      if query.columns = [] then [.one]
      else (query.columns.filterMap (findColumn names)).map .column
  lengths := lengths

variable {d noSchemas names}

theorem findColumn_eq (hdistinct : Function.Injective names) (c : Fin n) :
    findColumn names (names c).toList = some c := by
  cases hfound : findColumn names (names c).toList with
  | none =>
    have hne := List.find?_eq_none.mp hfound c (List.mem_finRange c)
    exact absurd (beq_self_eq_true _) hne
  | some c' =>
    have heq := List.find?_some hfound
    rw [beq_iff_eq, String.toList_inj] at heq
    rw [hdistinct heq]

/-- Such a remote answers the queries of a scan as it should, for names that stand
between the delimiters as they are. -/
theorem answerSelect_answered {schema table : String} (lengths : List Nat)
    (hdistinct : Function.Injective names) (hcolumns : ∀ c, d.closing ∉ (names c).toList)
    (hschema : d.closing ∉ schema.toList) (htable : d.closing ∉ table.toList)
    (hseparate : d.closing ∉ ['.', ',', ' ']) :
    (AdbcScan.attached (getDelimitedInternalName d noSchemas schema table) d).Answered
      (answerSelect d noSchemas names lengths) names := by
  intro columns hne
  have hread : readSelect d noSchemas
      ((ofTable (getDelimitedInternalName d noSchemas schema table) d).applyProjectionPushdown
        (columns.map names)).queryText.toList =
      some (request noSchemas schema table (columns.map names)) := by
    rw [queryText_toList, readSelect_iff]
    simp only [List.mem_cons, List.not_mem_nil, or_false, not_or] at hseparate
    refine ⟨by cases noSchemas <;> simp [request], ⟨fun _ => hseparate.1, fun _ => hseparate.2.1,
      fun _ => hseparate.2.2, fun hnil => absurd hnil (by simpa [request] using hne)⟩, ?_⟩
    rw [Select.text_raw_iff]
    intro name hname
    have hname' : (∃ c ∈ columns, (names c).toList = name) ∨
        (noSchemas = false ∧ schema.toList = name) ∨ table.toList = name := by
      cases noSchemas <;> simpa [Select.names, request, eq_comm] using hname
    rcases hname' with ⟨c, -, rfl⟩ | ⟨-, rfl⟩ | rfl
    · exact hcolumns c
    · exact hschema
    · exact htable
  have hselected : (request noSchemas schema table (columns.map names)).columns ≠ [] := by
    simpa [request] using hne
  have hfound : (request noSchemas schema table (columns.map names)).columns.filterMap
      (findColumn names) = columns := by
    show ((columns.map names).map String.toList).filterMap (findColumn names) = columns
    have hfind : findColumn names ∘ String.toList ∘ names = some :=
      funext fun c => findColumn_eq hdistinct c
    rw [List.map_map, List.filterMap_map, hfind, List.filterMap_some]
  rw [produceStream, answerSelect, hread]
  simp only [if_neg hselected, hfound]

end Remote

/-! ## Scans of a table with two columns -/

/-- The names of the two columns of the example, `a` and `b`. -/
def pairNames : Fin 2 → String := fun c => if c = 0 then "a" else "b"

/-- A remote with a table `t` of three rows. -/
def pairRemote : String → ArrowArrayStream 2 := answerSelect ⟨'"', '"'⟩ true pairNames [3]

def pairScan : AdbcScan := .attached (getDelimitedInternalName ⟨'"', '"'⟩ true "" "t") ⟨'"', '"'⟩

theorem pairScan_answered : pairScan.Answered pairRemote pairNames := by
  have hdistinct : ∀ c c', pairNames c = pairNames c' → c = c' := by decide
  exact answerSelect_answered [3] hdistinct (by decide) (by decide) (by decide) (by decide)

def pairRequest (ids : List (ColumnId 2)) : Request pairScan.function 2 where
  columnIds := ids
  projectionIds := []
  whole := nofun
  unpruned _ := rfl

/-- The scans of the table, by one thread. -/
def pairSystem (ids : List (ColumnId 2)) :
    TransitionSystem (ScanState Unit 2) (ScanEvent Unit 2) :=
  scanSystem (duckdbArrow 2) Unit pairRemote pairNames pairScan (pairRequest ids)

/-- The state in which the thread has taken the first array. -/
def pairStarted (ids : List (ColumnId 2)) : ScanState Unit 2 :=
  let started := (duckdbArrow 2).initLocal
    (scanInit (duckdbArrow 2) pairRemote pairNames pairScan (pairRequest ids)) ids
  ⟨started.1, Function.update (fun _ => none) () started.2, 0⟩

theorem pairStarted_reachable (ids : List (ColumnId 2)) :
    (pairSystem ids).Reachable (pairStarted ids) :=
  .step (a := .initLocal ()) (.initial rfl) rfl

/-- The chunk with the three rows of the table, filled in some way. -/
def threeRows (columns : List (Filled 2)) : ScannedChunk 2 := ⟨3, [(0, 0), (0, 1), (0, 2)], columns⟩

/-- `SELECT b, a FROM t`: the chunks hold the two columns in the order asked for. -/
theorem reversed_columns_agree :
    ∃ s', (pairSystem [.column 1, .column 0]).step (pairStarted [.column 1, .column 0])
        (.scan () (some (threeRows [.child (.column 1), .child (.column 0)]))) s' ∧
      ProjectionAgrees (n := 2) [.column 1, .column 0]
        (threeRows [.child (.column 1), .child (.column 0)]) := by
  have hs := pairStarted_reachable [.column 1, .column 0]
  have hstep : (pairSystem [.column 1, .column 0]).step (pairStarted [.column 1, .column 0])
      (.scan () (some (threeRows [.child (.column 1), .child (.column 0)]))) _ :=
    ⟨by decide, rfl⟩
  exact ⟨_, hstep, (scan_agrees_iff pairScan_answered hs hstep).mpr fun _ => by decide⟩

/-- `SELECT rowid, a, b FROM t`: the column `a` is filled from `b`, and for `b` a child is
read that the array does not have. -/
theorem row_id_first_disagrees :
    pairScan.Answered pairRemote pairNames ∧
      (pairSystem [.rowId, .column 0, .column 1]).Reachable
        (pairStarted [.rowId, .column 0, .column 1]) ∧
      (∃ s', (pairSystem [.rowId, .column 0, .column 1]).step
        (pairStarted [.rowId, .column 0, .column 1])
        (.scan () (some (threeRows [.untouched, .child (.column 1), .outside]))) s') ∧
      ¬ ProjectionAgrees (n := 2) [.rowId, .column 0, .column 1]
        (threeRows [.untouched, .child (.column 1), .outside]) := by
  refine ⟨pairScan_answered, pairStarted_reachable _, ⟨_, by decide, rfl⟩, fun h => h.inside ?_⟩
  exact List.mem_of_getElem? (i := 2) rfl

end AdbcClient.ArrowScan
