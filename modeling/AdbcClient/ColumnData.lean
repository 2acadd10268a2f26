import Mathlib.Data.List.Basic

/-!
# Column data collections

What the insert pipeline relies on in DuckDB's `ColumnDataCollection`, the buffer
between the thread that produces rows and the one that sends them.  Rows are
appended in chunks of at most `STANDARD_VECTOR_SIZE`, and read back in chunks through
a scan state.

`ColumnDataCollection` is the interface with its laws: rows come back once and in
order, a scan that has returned nothing stays exhausted until it is initialized
again, and a scan from the beginning returns no more chunks than were appended.
`ColumnDataCollection.dense` is the collection that meets them the way DuckDB does: a
chunk is filled up before the next one is started, so that the boundaries of the
appended chunks are lost.
-/
namespace AdbcClient

/-- `STANDARD_VECTOR_SIZE`. -/
def standardVectorSize : Nat := 2048

/-- `DataChunk`. -/
structure DataChunk (Row : Type) where
  rows : List Row
  size_le : rows.length ≤ standardVectorSize

/-- The rows of a list of chunks. -/
def chunkRows {Row : Type} (chunks : List (DataChunk Row)) : List Row :=
  chunks.flatMap DataChunk.rows

@[simp] theorem chunkRows_nil {Row : Type} : chunkRows ([] : List (DataChunk Row)) = [] := rfl

@[simp] theorem chunkRows_append {Row : Type} (chunks : List (DataChunk Row))
    (chunk : DataChunk Row) : chunkRows (chunks ++ [chunk]) = chunkRows chunks ++ chunk.rows := by
  simp [chunkRows]

/-- `ColumnDataCollection` with its scan state, as an interface with the laws that the insert relies
on. -/
structure ColumnDataCollection (Row : Type) where
  /-- What the collection holds, however it is stored. -/
  Store : Type
  /-- `ColumnDataScanState`. -/
  ScanState : Type
  /-- A new collection, and one after `Reset`. -/
  empty : Store
  /-- `Append`. -/
  append : Store → DataChunk Row → Store
  /-- `InitializeScan`. -/
  initializeScan : ScanState
  /-- `Scan`: the next chunk, or nothing at the end, and the scan state after it. -/
  scan : Store → ScanState → Option (DataChunk Row) × ScanState
  /-- The rows that are stored, in the order in which they were appended. -/
  rows : Store → List Row
  /-- The rows a scan has not returned yet. -/
  rest : Store → ScanState → List Row
  /-- How many chunks it has not returned yet. -/
  left : Store → ScanState → Nat
  rows_empty : rows empty = []
  rows_append : ∀ s c, rows (append s c) = rows s ++ c.rows
  rest_initializeScan : ∀ s, rest s initializeScan = rows s
  rest_scan_some : ∀ {s p c p'}, scan s p = (some c, p') → rest s p = c.rows ++ rest s p'
  rest_scan_none : ∀ {s p p'}, scan s p = (none, p') → rest s p = []
  rest_exhausted : ∀ {s p p'}, scan s p = (none, p') → ∀ s', rest s' p' = []
  left_empty : left empty initializeScan = 0
  left_append : ∀ s c, left (append s c) initializeScan ≤ left s initializeScan + 1
  left_scan : ∀ {s p c p'}, scan s p = (some c, p') → left s p' + 1 ≤ left s p

namespace ColumnDataCollection
variable {Row : Type}

/-- Where a scan of a dense collection is. -/
inductive DenseScan where
  | atChunk (index : Nat)
  | exhausted
  deriving DecidableEq, Repr

/-- The rows from a stored chunk on. -/
def rowsFrom (s : List Row) : DenseScan → List Row
  | .atChunk i => s.drop (standardVectorSize * i)
  | .exhausted => []

/-- The next stored chunk, which is full unless it is the last one. -/
def denseChunk (s : List Row) (p : DenseScan) : DataChunk Row :=
  ⟨(rowsFrom s p).take standardVectorSize, List.length_take_le _ _⟩

/-- `Scan`. -/
def denseScan (s : List Row) (p : DenseScan) : Option (DataChunk Row) × DenseScan :=
  match p with
  | .exhausted => (none, .exhausted)
  | .atChunk i =>
    if (rowsFrom s p).isEmpty then (none, .exhausted)
    else (some (denseChunk s p), .atChunk (i + 1))

/-- The number of stored chunks that hold `n` rows. -/
def chunksFor (n : Nat) : Nat := (n + (standardVectorSize - 1)) / standardVectorSize

theorem denseScan_cases (s : List Row) (p : DenseScan) :
    (∃ i, p = .atChunk i ∧ rowsFrom s p ≠ [] ∧
      denseScan s p = (some (denseChunk s p), .atChunk (i + 1))) ∨
    (rowsFrom s p = [] ∧ denseScan s p = (none, .exhausted)) := by
  cases p with
  | exhausted => exact .inr ⟨rfl, rfl⟩
  | atChunk i =>
    by_cases hempty : rowsFrom s (.atChunk i) = []
    · exact .inr ⟨hempty, by simp [denseScan, hempty]⟩
    · exact .inl ⟨i, rfl, hempty, by simp [denseScan, hempty]⟩

/-- A scanned chunk is one chunk less to come. -/
theorem chunksFor_scan {store : List Row} {p p' : DenseScan} {chunk : DataChunk Row}
    (h : denseScan store p = (some chunk, p')) :
    chunksFor (rowsFrom store p).length = chunksFor (rowsFrom store p').length + 1 := by
  rcases denseScan_cases store p with ⟨i, rfl, hne, he⟩ | ⟨_, he⟩
  · obtain ⟨-, rfl⟩ := Prod.mk.inj (h.symm.trans he)
    have hpos := List.length_pos_iff.mpr hne
    simp only [rowsFrom, chunksFor, List.length_drop, standardVectorSize] at hpos ⊢
    omega
  · cases h.symm.trans he

/-- At the end of a scan nothing is to come, before and after. -/
theorem rowsFrom_none {store : List Row} {p p' : DenseScan}
    (h : denseScan store p = (none, p')) : rowsFrom store p = [] ∧ rowsFrom store p' = [] := by
  rcases denseScan_cases store p with ⟨i, _, _, he⟩ | ⟨hempty, he⟩
  · cases h.symm.trans he
  · obtain ⟨-, rfl⟩ := Prod.mk.inj (h.symm.trans he)
    exact ⟨hempty, rfl⟩

/-- **The dense collection**: rows are stored in chunks that are full but for the last one. -/
def dense (Row : Type) : ColumnDataCollection Row where
  Store := List Row
  ScanState := DenseScan
  empty := []
  append s c := s ++ c.rows
  initializeScan := .atChunk 0
  scan := denseScan
  rows s := s
  rest := rowsFrom
  left s p := chunksFor (rowsFrom s p).length
  rows_empty := rfl
  rows_append _ _ := rfl
  rest_initializeScan _ := rfl
  rest_scan_some := by
    intro s p c p' h
    rcases denseScan_cases s p with ⟨i, rfl, -, he⟩ | ⟨_, he⟩
    · obtain ⟨hc, rfl⟩ := Prod.mk.inj (h.symm.trans he)
      obtain rfl := Option.some.inj hc
      have hnext : rowsFrom s (.atChunk (i + 1)) =
          (rowsFrom s (.atChunk i)).drop standardVectorSize := by
        simp only [rowsFrom, List.drop_drop, Nat.mul_add, Nat.mul_one]
      rw [hnext]
      exact (List.take_append_drop standardVectorSize _).symm
    · cases h.symm.trans he
  rest_scan_none h := (rowsFrom_none h).1
  rest_exhausted := by
    intro s p p' h s'
    rcases denseScan_cases s p with ⟨i, rfl, -, he⟩ | ⟨-, he⟩
    · cases h.symm.trans he
    · obtain ⟨-, rfl⟩ := Prod.mk.inj (h.symm.trans he)
      rfl
  left_empty := by simp [rowsFrom, chunksFor, standardVectorSize]
  left_append s c := by
    have hle := c.size_le
    simp only [rowsFrom, chunksFor, List.drop_zero, Nat.mul_zero, List.length_append,
      standardVectorSize] at hle ⊢
    omega
  left_scan h := Nat.le_of_eq (chunksFor_scan h).symm

end ColumnDataCollection

end AdbcClient
