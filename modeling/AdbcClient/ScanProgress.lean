import AdbcClient.ArrowScan
import AdbcClient.WorkSharing

/-!
# The rows of a scan

A thread of a scan keeps in `chunk_offset` how far it has come in the array it has, and
takes the next array of the stream when it has come to its end (`adbc_scan.cpp`).  Other
threads take arrays in between.

`ScanRecord` adds to a scan the chunks that the calls of `AdbcScanFunction` have output, in
the order of the calls, and `ScanRecord.rows` are the rows that these chunks hold.  The
proofs account for them with a `Ledger` in which the arrays of the stream are the parts:
`Recorded` says that the rows output so far are its log, and every call keeps it.  So
`rows_scanned_once`: when the threads are through, each row of each array is in the outputs
once, and those of one array in order.
-/
namespace AdbcClient.ArrowScan
open Runs WorkSharing

/-! ## What is recorded -/

section Record
variable {n : Nat} {A : ArrowTableFunction n} {Thread : Type} [DecidableEq Thread]

/-- A scan, and what the calls of its threads have output. -/
structure ScanRecord (Thread : Type) (n : Nat) where
  state : ScanState Thread n
  /-- The chunks that were output, in the order of the calls. -/
  outputs : List (ScannedChunk n)
  started : List Thread
  /-- The threads that have had an empty output. -/
  ended : List Thread

namespace ScanRecord

/-- The rows that the outputs of the scan hold so far, in the order in which the calls have
returned. -/
def rows (r : ScanRecord Thread n) : List (Nat × Nat) := r.outputs.flatMap ScannedChunk.rows

/-- The places of the rows of one array among them, in the order in which they were output. -/
def rowsOf (r : ScanRecord Thread n) (b : Nat) : List Nat :=
  (r.rows.filter fun row => row.1 == b).map Prod.snd

/-- The record after a thread has started. -/
def afterInit (r : ScanRecord Thread n) (t : Thread) (s : ScanState Thread n) :
    ScanRecord Thread n where
  state := s
  outputs := r.outputs
  started := t :: r.started
  ended := r.ended

/-- The record after a call of a thread has returned, with its output if there is one. -/
def afterScan (r : ScanRecord Thread n) (t : Thread) (output : Option (ScannedChunk n))
    (s : ScanState Thread n) : ScanRecord Thread n where
  state := s
  outputs := r.outputs ++ output.toList
  started := r.started
  ended := if output.isSome then r.ended else t :: r.ended

/-- Some thread has started, and all that have are through. -/
def Finished (r : ScanRecord Thread n) : Prop :=
  r.started ≠ [] ∧ ∀ t ∈ r.started, t ∈ r.ended

end ScanRecord

variable (A) (Thread) (execute : String → ArrowArrayStream n)
  (names : Fin n → String) (scan : AdbcScan) (request : Request scan.function n)

/-- The lengths of the arrays that answer the query of a scan. -/
def arrayLengths : List Nat := (scanInit A execute names scan request).stream.lengths

/-- The runs of a scan with the record of its outputs.  Each thread starts once, before it
is called. -/
def recordSystem : TransitionSystem (ScanRecord Thread n) (ScanEvent Thread n) where
  initial r := (scanSystem A Thread execute names scan request).initial r.state ∧
    r.outputs = [] ∧ r.started = [] ∧ r.ended = []
  step r event r' :=
    (scanSystem A Thread execute names scan request).step r.state event r'.state ∧
      match event with
      | .initLocal t => t ∉ r.started ∧ r' = r.afterInit t r'.state
      | .scan t output => t ∈ r.started ∧ r' = r.afterScan t output r'.state

end Record

/-! ## What every call keeps -/

section Keeps
variable {n : Nat} {A : ArrowTableFunction n} {Thread : Type} [DecidableEq Thread]
  {sizes : List Nat} {g g' : ArrowScanGlobalState n} {l l' : ArrowScanLocalState n}
  {L L' : Ledger Thread}

/-- What is left in the stream is what the ledger has not handed out. -/
structure Accounts (sizes : List Nat) (g : ArrowScanGlobalState n) (L : Ledger Thread) : Prop where
  sound : Sound sizes L
  taken : L.taken = g.fetched
  remaining : sizes.drop L.taken = g.stream.lengths

/-- What a thread has: an array, of which it has output the rows before `chunk_offset`, or,
at the end of the stream, none. -/
def Working (sizes : List Nat) (g : ArrowScanGlobalState n) (L : Ledger Thread) (t : Thread) :
    Option (ArrowScanLocalState n) → Prop
  | none => L.part t = none
  | some l =>
    (L.part t = some l.chunk.index ∧ l.chunk.length = sizes.getD l.chunk.index 0 ∧
      l.chunkOffset ≤ l.chunk.length ∧ L.done l.chunk.index = List.range l.chunkOffset) ∨
    (L.part t = none ∧ g.stream.lengths = [] ∧ l.chunk.length ≤ l.chunkOffset)

omit [DecidableEq Thread] in
/-- A thread that has come to the end of its array has output all of it. -/
theorem Working.done_eq {t : Thread} (h : Working sizes g L t (some l))
    (hoffset : l.chunk.length ≤ l.chunkOffset) {b : Nat} (hb : L.part t = some b) :
    L.done b = List.range (sizes.getD b 0) := by
  rcases h with ⟨hpart, hlength, hle, hdone⟩ | ⟨hnone, -, -⟩
  · obtain rfl := Option.some.inj (hpart.symm.trans hb)
    rw [hdone, ← hlength, Nat.le_antisymm hle hoffset]
  · cases hnone.symm.trans hb

omit [DecidableEq Thread] in
/-- A thread has what it had when others have worked. -/
theorem Working.frame {t : Thread} {localState : Option (ArrowScanLocalState n)}
    (h : Working sizes g L t localState) (hpart : L'.part t = L.part t)
    (hdone : ∀ b, L.part t = some b → L'.done b = L.done b)
    (hexhausted : g.stream.lengths = [] → g'.stream.lengths = []) :
    Working sizes g' L' t localState := by
  cases localState with
  | none => exact hpart.trans h
  | some l =>
    rcases h with ⟨hb, hlength, hle, hrows⟩ | ⟨hnone, hend, hle⟩
    · exact .inl ⟨hpart.trans hb, hlength, hle, (hdone _ hb).trans hrows⟩
    · exact .inr ⟨hpart.trans hnone, hexhausted hend, hle⟩

omit [DecidableEq Thread] in
/-- What is left in the stream are the arrays that are not taken. -/
theorem Accounts.length_eq (h : Accounts sizes g L) :
    sizes.length = L.taken + g.stream.lengths.length := by
  have hbounded := h.sound.bounded
  rw [← h.remaining, List.length_drop]
  omega

omit [DecidableEq Thread] in
theorem Accounts.getD_eq (h : Accounts sizes g L) (i : Nat) :
    sizes.getD (L.taken + i) 0 = g.stream.lengths.getD i 0 := by
  rw [← h.remaining, List.getD_eq_getElem?_getD, List.getD_eq_getElem?_getD, List.getElem?_drop]

omit [DecidableEq Thread] in
/-- **The end of the stream**: nothing that is left has rows. -/
theorem Accounts.skipAll (h : Accounts sizes g L) (hzero : ∀ m ∈ g.stream.lengths, m = 0) :
    Accounts sizes
      { g with
        stream := { g.stream with lengths := [] }
        fetched := g.fetched + g.stream.lengths.length }
      (L.skip g.stream.lengths.length) := by
  refine ⟨h.sound.skip (Nat.le_of_eq h.length_eq.symm) fun i hi => ?_,
    congrArg (· + g.stream.lengths.length) h.taken, ?_⟩
  · rw [h.getD_eq, List.getD_eq_getElem _ _ hi]
    exact hzero _ (List.getElem_mem hi)
  · show sizes.drop (L.taken + g.stream.lengths.length) = []
    rw [← h.length_eq, List.drop_length]

/-- **The next array with rows** goes to a thread that has none. -/
theorem Accounts.takeNext (h : Accounts sizes g L) {t : Thread} (hfree : L.part t = none)
    {skipped rest : List Nat} {length : Nat}
    (hlengths : g.stream.lengths = skipped ++ length :: rest) (hzero : ∀ m ∈ skipped, m = 0) :
    Accounts sizes
        { g with
          stream := { g.stream with lengths := rest }
          fetched := g.fetched + skipped.length + 1 }
        ((L.skip skipped.length).take t) ∧
      sizes.getD (g.fetched + skipped.length) 0 = length ∧
      L.done (g.fetched + skipped.length) = [] := by
  have hlength := h.length_eq
  rw [hlengths, List.length_append, List.length_cons] at hlength
  have hskipped : Sound sizes (L.skip skipped.length) := by
    refine h.sound.skip (by omega) fun i hi => ?_
    rw [h.getD_eq, hlengths, List.getD_append _ _ _ _ hi, List.getD_eq_getElem _ _ hi]
    exact hzero _ (List.getElem_mem hi)
  have hmore : (L.skip skipped.length).taken < sizes.length := by
    show L.taken + skipped.length < sizes.length
    omega
  obtain ⟨htaken, hnew⟩ := hskipped.take hfree hmore
  rw [← h.taken]
  refine ⟨⟨htaken, rfl, ?_⟩, ?_, hnew⟩
  · show sizes.drop (L.taken + skipped.length + 1) = rest
    rw [Nat.add_assoc, ← List.drop_drop, h.remaining, hlengths]
    simp
  · rw [h.getD_eq, hlengths, List.getD_append_right _ _ _ _ (Nat.le_refl _), Nat.sub_self]
    rfl

/-- What asking for an array leaves: no row more is output, and the others have what they
had.  Who gets an array starts with its first row, and who gets none finds nothing left that
has rows. -/
structure Asked (sizes : List Nat) (g g' : ArrowScanGlobalState n) (l' : ArrowScanLocalState n)
    (L L' : Ledger Thread) (t : Thread) (more : Bool) : Prop where
  accounts : Accounts sizes g' L'
  log : L'.log = L.log
  parts : ∀ t', t' ≠ t → L'.part t' = L.part t'
  exhausted : g.stream.lengths = [] → g'.stream.lengths = [] ∧ L'.part t = none
  array : more = true → 0 < l'.chunk.length ∧ l'.chunkOffset = 0 ∧
    L'.part t = some l'.chunk.index ∧ l'.chunk.length = sizes.getD l'.chunk.index 0 ∧
    L.done l'.chunk.index = []
  nothing : more = false → L'.part t = none ∧ g'.stream.lengths = [] ∧
    l'.chunk.length ≤ l'.chunkOffset ∧ ∀ m ∈ g.stream.lengths, m = 0

/-- **Asking for an array** keeps the accounts. -/
theorem Accounts.ask (h : Accounts sizes g L) {t : Thread} {more : Bool}
    (hdone : ∀ b, L.part t = some b → L.done b = List.range (sizes.getD b 0))
    (hnext : NextArray g l more g' l') : ∃ L', Asked sizes g g' l' L L' t more := by
  obtain ⟨hsound, hfree⟩ := h.sound.drop hdone
  have hdropped : Accounts sizes g (L.drop t) := ⟨hsound, h.taken, h.remaining⟩
  cases hnext with
  | @array skipped rest length hlengths hzero hpos =>
    obtain ⟨htaken, hsize, hnew⟩ := hdropped.takeNext hfree hlengths hzero
    refine ⟨_, htaken, rfl, fun t' ht' => ?_, fun hend => ?_, fun _ => ⟨hpos, rfl, ?_⟩, nofun⟩
    · rw [Ledger.part_take_ne _ ht']
      exact L.part_drop_ne ht'
    · rw [hend] at hlengths
      exact absurd hlengths.symm (List.append_ne_nil_of_right_ne_nil _ (List.cons_ne_nil _ _))
    · refine ⟨?_, hsize.symm, hnew⟩
      rw [Ledger.part_take_self, ← h.taken]
      rfl
  | exhausted hzero _ hchunk =>
    refine ⟨_, hdropped.skipAll hzero, rfl, fun t' ht' => L.part_drop_ne ht', fun _ => ⟨rfl, hfree⟩,
      nofun, fun _ => ⟨hfree, rfl, hchunk, hzero⟩⟩

omit [DecidableEq Thread] in
/-- **Filling a chunk** outputs the next rows of the array that a thread has. -/
theorem Accounts.output (h : Accounts sizes g L) {t : Thread} (isProjected : Bool)
    (hpart : L.part t = some l.chunk.index) (hlength : l.chunk.length = sizes.getD l.chunk.index 0)
    (hdone : L.done l.chunk.index = List.range l.chunkOffset)
    (hmore : l.chunkOffset < l.chunk.length) :
    ∃ L', Accounts sizes g L' ∧
      Working sizes g L' t (some (l.advance (fillOutput A isProjected g l).size)) ∧
      L'.log = L.log ++ (fillOutput A isProjected g l).rows ∧ L'.part = L.part ∧
      ∀ t', t' ≠ t → ∀ b, L.part t' = some b → L'.done b = L.done b := by
  obtain ⟨-, -, hfits⟩ := outputSize_bounds hmore
  obtain ⟨hsize, hrows⟩ := rows_fillOutput (A := A) isProjected g hmore
  obtain ⟨hsound, hread⟩ := h.sound.work hpart hdone (hlength ▸ hfits)
  rw [hsize, hrows]
  refine ⟨L.work l.chunk.index l.chunkOffset l.outputSize, ⟨hsound, h.taken, h.remaining⟩,
    .inl ⟨hpart, hlength, hfits, hread⟩, rfl, rfl, fun t' ht' b hb => ?_⟩
  have hne : b ≠ l.chunk.index := fun he => ht' (h.sound.unique t' t b hb (he ▸ hpart))
  exact L.done_work_ne hne _ _

/-- What a thread that moves leaves, for itself and for the others. -/
structure Moves (sizes : List Nat) (g g' : ArrowScanGlobalState n) (L L' : Ledger Thread)
    (t : Thread) (localState' : Option (ArrowScanLocalState n)) : Prop where
  accounts : Accounts sizes g' L'
  working : Working sizes g' L' t localState'
  parts : ∀ t', t' ≠ t → L'.part t' = L.part t'
  rows : ∀ t', t' ≠ t → ∀ b, L.part t' = some b → L'.done b = L.done b
  exhausted : g.stream.lengths = [] → g'.stream.lengths = []
  idle : localState' = none → g'.stream.lengths = []
  /-- An exhausted stream gives a thread nothing new. -/
  through : g.stream.lengths = [] → L.part t = none → L'.part t = none

/-- An output is filled, with no more rows than fit. -/
structure Filling (output : ScannedChunk n) : Prop where
  rows : output.size = output.rows.length
  pos : 0 < output.size
  fits : output.size ≤ standardVectorSize

/-- What a call does to the ledger besides: the rows that it puts into its output are the units that
are marked as done. -/
structure Outputs (g g' : ArrowScanGlobalState n) (L L' : Ledger Thread) (t : Thread)
    (output : Option (ScannedChunk n)) (linesRead linesRead' : Nat) : Prop where
  log : L'.log = L.log ++ output.toList.flatMap ScannedChunk.rows
  lines : linesRead' = linesRead + (output.toList.flatMap ScannedChunk.rows).length
  filling : ∀ chunk ∈ output, Filling chunk
  /-- Nothing is output only when nothing that has rows is left in the stream. -/
  ending : output = none →
    g'.stream.lengths = [] ∧ L'.part t = none ∧ ∀ m ∈ g.stream.lengths, m = 0

theorem filling_fillOutput (isProjected : Bool) (g : ArrowScanGlobalState n)
    (hmore : l.chunkOffset < l.chunk.length) :
    Filling (fillOutput A isProjected g l) ∧
      (fillOutput A isProjected g l).rows.length = l.outputSize := by
  obtain ⟨hpos, hle, -⟩ := outputSize_bounds hmore
  obtain ⟨hsize, hrows⟩ := rows_fillOutput (A := A) isProjected g hmore
  have hlength : (fillOutput A isProjected g l).rows.length = l.outputSize := by
    rw [hrows, ArrowScanLocalState.rowsFrom, List.length_map, List.length_range']
  exact ⟨⟨hsize.trans hlength.symm, hsize ▸ hpos, hsize ▸ hle⟩, hlength⟩

/-- **One call of `AdbcScanFunction`** keeps the account, whatever it finds: rows of the chunk at
hand, of the next one, or nothing. -/
theorem Accounts.call (h : Accounts sizes g L) {t : Thread} {isProjected : Bool}
    {localState localState' : Option (ArrowScanLocalState n)} {output : Option (ScannedChunk n)}
    {linesRead linesRead' : Nat} (hworking : Working sizes g L t localState)
    (hidle : localState = none → g.stream.lengths = [])
    (hcall : adbcScanFunction A isProjected g linesRead localState =
      (output, g', localState', linesRead')) :
    ∃ L', Moves sizes g g' L L' t localState' ∧
      Outputs g g' L L' t output linesRead linesRead' := by
  cases localState with
  | none =>
    obtain ⟨rfl, rfl, rfl, rfl⟩ := by simpa [adbcScanFunction] using hcall
    have hend := hidle rfl
    refine ⟨L, ⟨h, hworking, fun _ _ => rfl, fun _ _ _ _ => rfl, id, hidle, fun _ => id⟩,
      ⟨(List.append_nil _).symm, rfl, fun _ h => (by cases h), fun _ => ⟨hend, hworking, ?_⟩⟩⟩
    rw [hend]
    exact fun m hm => absurd hm List.not_mem_nil
  | some l =>
    rcases adbcScanFunction_cases isProjected g linesRead l with
      ⟨hmore, he⟩ | ⟨hoffset, g₁, l₁, hnext, he⟩ | ⟨hoffset, g₁, l₁, hnext, he⟩
    · -- rows are left in the array that the thread has
      obtain ⟨rfl, rfl, rfl, rfl⟩ := by simpa using he.symm.trans hcall
      rcases hworking with ⟨hpart, hlength, -, hdone⟩ | ⟨-, -, hle⟩
      · obtain ⟨L', haccounts, hworking', hlog, hparts, hrows⟩ :=
          h.output isProjected hpart hlength hdone hmore
        obtain ⟨hfilling, hlines⟩ := filling_fillOutput (A := A) isProjected g hmore
        refine ⟨L', ⟨haccounts, hworking', fun t' _ => congrFun hparts t', hrows, id,
          fun h => (by cases h), fun _ hnone => (congrFun hparts t).trans hnone⟩,
          ⟨?_, ?_, ?_, fun h => (by cases h)⟩⟩
        · simpa using hlog
        · simp [hlines]
        · rintro chunk ⟨⟩
          exact hfilling
      · exact absurd hmore (Nat.not_lt_of_le hle)
    · -- the next array is taken first
      obtain ⟨rfl, rfl, rfl, rfl⟩ := by simpa using he.symm.trans hcall
      obtain ⟨L₁, hasked⟩ := h.ask (fun b hb => hworking.done_eq hoffset hb) hnext
      obtain ⟨hpos, hzero, hpart, hlength, hnew⟩ := hasked.array rfl
      have hlog₁ : ∀ b, L₁.done b = L.done b := fun b => by rw [Ledger.done, hasked.log, Ledger.done]
      have hdone : L₁.done l₁.chunk.index = List.range l₁.chunkOffset := by
        rw [hlog₁, hnew, hzero, List.range_zero]
      have hmore : l₁.chunkOffset < l₁.chunk.length := hzero ▸ hpos
      obtain ⟨L', haccounts, hworking', hlog, hparts, hrows⟩ :=
        hasked.accounts.output (A := A) isProjected hpart hlength hdone hmore
      obtain ⟨hfilling, hlines⟩ := filling_fillOutput (A := A) isProjected g₁ hmore
      refine ⟨L', ⟨haccounts, hworking', fun t' ht' => ?_, fun t' ht' b hb => ?_,
        fun hend => (hasked.exhausted hend).1, fun h => (by cases h), fun hend _ => ?_⟩,
        ⟨?_, ?_, ?_, fun h => (by cases h)⟩⟩
      · exact (congrFun hparts t').trans (hasked.parts t' ht')
      · rw [hrows t' ht' b ((hasked.parts t' ht').trans hb), hlog₁]
      · exact (congrFun hparts t).trans (hasked.exhausted hend).2
      · rw [hlog, hasked.log]
        simp
      · simp [hlines]
      · rintro chunk ⟨⟩
        exact hfilling
    · -- nothing is left
      obtain ⟨rfl, rfl, rfl, rfl⟩ := by simpa using he.symm.trans hcall
      obtain ⟨L₁, hasked⟩ := h.ask (fun b hb => hworking.done_eq hoffset hb) hnext
      obtain ⟨hpart, hend, hle, hzero⟩ := hasked.nothing rfl
      refine ⟨L₁, ⟨hasked.accounts, .inr ⟨hpart, hend, hle⟩, hasked.parts, fun _ _ b _ => ?_,
        fun _ => hend, fun _ => hend, fun _ _ => hpart⟩,
        ⟨?_, rfl, fun _ h => (by cases h), fun _ => ⟨hend, hpart, hzero⟩⟩⟩
      · rw [Ledger.done, hasked.log, Ledger.done]
      · simp [hasked.log]

/-- **The start of a thread**, which has no array. -/
theorem Accounts.init (h : Accounts sizes g L) {t : Thread} (hfree : L.part t = none)
    (A : ArrowTableFunction n) (ids : List (ColumnId n)) :
    ∃ L', L'.log = L.log ∧
      Moves sizes g (A.initLocal g ids).1 L L' t (A.initLocal g ids).2 := by
  obtain ⟨l, more, l', -, hnext, hlocal⟩ := A.initLocal_next g ids
  obtain ⟨L', hasked⟩ := h.ask (t := t) (fun b hb => by cases hfree.symm.trans hb) hnext
  have hrows : ∀ t', t' ≠ t → ∀ b, L.part t' = some b → L'.done b = L.done b := by
    intro _ _ b _
    rw [Ledger.done, hasked.log, Ledger.done]
  rw [hlocal]
  refine ⟨L', hasked.log, hasked.accounts, ?_, hasked.parts, hrows,
    fun hend => (hasked.exhausted hend).1, ?_, fun hend _ => (hasked.exhausted hend).2⟩
  · cases more with
    | true =>
      obtain ⟨-, hzero, hpart, hlength, hnew⟩ := hasked.array rfl
      refine .inl ⟨hpart, hlength, hzero ▸ Nat.zero_le _, ?_⟩
      rw [hzero, List.range_zero, Ledger.done, hasked.log]
      exact hnew
    | false => exact (hasked.nothing rfl).1
  · cases more with
    | true => exact fun h => by cases h
    | false => exact fun _ => (hasked.nothing rfl).2.1

end Keeps

/-! ## The runs -/

section Runs
variable {n : Nat} {A : ArrowTableFunction n} {Thread : Type} [DecidableEq Thread]
  {execute : String → ArrowArrayStream n} {names : Fin n → String} {scan : AdbcScan}
  {request : Request scan.function n} {sizes : List Nat} {r : ScanRecord Thread n}
  {L : Ledger Thread}

/-- **What a record of a scan keeps**, together with some ledger of its work. -/
structure Recorded (sizes : List Nat) (r : ScanRecord Thread n) (L : Ledger Thread) : Prop where
  log : L.log = r.rows
  filling : ∀ chunk ∈ r.outputs, Filling chunk
  accounts : Accounts sizes r.state.globalState L
  working : ∀ t, Working sizes r.state.globalState L t (r.state.localState t)
  notStarted : ∀ t, t ∉ r.started → r.state.localState t = none
  idle : ∀ t ∈ r.started, r.state.localState t = none → r.state.globalState.stream.lengths = []
  ended : ∀ t ∈ r.ended, r.state.globalState.stream.lengths = [] ∧ L.part t = none
  lines : r.state.linesRead = r.rows.length

/-- A move of a thread that returns no output keeps the record, if the ledger accounts for it. -/
theorem Recorded.moved (h : Recorded sizes r L) {t : Thread} {g' : ArrowScanGlobalState n}
    {L' : Ledger Thread} {localState' : Option (ArrowScanLocalState n)} {linesRead : Nat}
    {outputs : List (ScannedChunk n)} {started' ended' : List Thread}
    (hmoves : Moves sizes r.state.globalState g' L L' t localState')
    (hlog : L'.log = outputs.flatMap ScannedChunk.rows)
    (hfilling : ∀ chunk ∈ outputs, Filling chunk)
    (hlines : linesRead = (outputs.flatMap ScannedChunk.rows).length)
    (hstarted : ∀ t', t' ∈ started' ↔ t' = t ∨ t' ∈ r.started)
    (hended : ∀ t' ∈ ended', t' ∈ r.ended ∨
      (t' = t ∧ g'.stream.lengths = [] ∧ L'.part t = none)) :
    Recorded sizes ⟨⟨g', Function.update r.state.localState t localState', linesRead⟩, outputs,
      started', ended'⟩ L' := by
  have hself : Function.update r.state.localState t localState' t = localState' :=
    Function.update_self ..
  have hother : ∀ t', t' ≠ t →
      Function.update r.state.localState t localState' t' = r.state.localState t' :=
    fun t' he => Function.update_of_ne he ..
  refine ⟨hlog, hfilling, hmoves.accounts, fun t' => ?_, fun t' ht' => ?_, fun t' ht' hnone => ?_,
    fun t' ht' => ?_, hlines⟩
  · by_cases he : t' = t
    · simp only [he, hself]
      exact hmoves.working
    · simp only [hother t' he]
      exact (h.working t').frame (hmoves.parts t' he) (hmoves.rows t' he) hmoves.exhausted
  · rw [hstarted, not_or] at ht'
    exact (hother t' ht'.1).trans (h.notStarted t' ht'.2)
  · by_cases he : t' = t
    · obtain rfl := he
      exact hmoves.idle (hself.symm.trans hnone)
    · have hbefore := ((hstarted t').mp ht').resolve_left he
      exact hmoves.exhausted (h.idle t' hbefore ((hother t' he).symm.trans hnone))
  · rcases hended t' ht' with hbefore | ⟨rfl, hnow⟩
    · obtain ⟨hend, hpart⟩ := h.ended t' hbefore
      refine ⟨hmoves.exhausted hend, ?_⟩
      by_cases he : t' = t
      · obtain rfl := he
        exact hmoves.through hend hpart
      · exact (hmoves.parts t' he).trans hpart
    · exact hnow

theorem Recorded.afterInit (h : Recorded sizes r L) {t : Thread} (ht : t ∉ r.started)
    {s : ScanState Thread n}
    (hstep : (scanSystem A Thread execute names scan request).step r.state (.initLocal t) s) :
    ∃ L', Recorded sizes (r.afterInit t s) L' := by
  obtain rfl := hstep
  have hfree : L.part t = none := by
    have hworking := h.working t
    rw [h.notStarted t ht] at hworking
    exact hworking
  obtain ⟨L', hlog, hmoves⟩ := h.accounts.init hfree A request.columnIds
  exact ⟨L', h.moved hmoves (hlog.trans h.log) h.filling h.lines (fun t' => List.mem_cons)
    fun t' ht' => .inl ht'⟩

theorem Recorded.afterScan (h : Recorded sizes r L) {t : Thread}
    {output : Option (ScannedChunk n)} (ht : t ∈ r.started) {s : ScanState Thread n}
    (hstep : (scanSystem A Thread execute names scan request).step r.state (.scan t output) s) :
    (∃ L', Recorded sizes (r.afterScan t output s) L') ∧
      (output = none → ∀ m ∈ r.state.globalState.stream.lengths, m = 0) := by
  obtain ⟨houtput, rfl⟩ := hstep
  rcases hcall : adbcScanFunction A scan.factory.projectionPushdown r.state.globalState
    r.state.linesRead (r.state.localState t) with ⟨output', g', local', linesRead'⟩
  rw [hcall] at houtput
  obtain rfl : output = output' := houtput
  obtain ⟨L', hmoves, houtputs⟩ := h.accounts.call (h.working t) (h.idle t ht) hcall
  have hrows : (r.outputs ++ output.toList).flatMap ScannedChunk.rows =
      r.rows ++ output.toList.flatMap ScannedChunk.rows := List.flatMap_append ..
  refine ⟨⟨L', h.moved hmoves ?_ ?_ ?_ (fun t' => ⟨.inr, fun ht' => ht'.elim (· ▸ ht) id⟩)
    fun t' ht' => ?_⟩, fun hnone => (houtputs.ending hnone).2.2⟩
  · rw [houtputs.log, h.log, hrows]
  · intro chunk hchunk
    rcases List.mem_append.mp hchunk with hbefore | hnow
    · exact h.filling chunk hbefore
    · exact houtputs.filling chunk (Option.mem_toList.mp hnow)
  · rw [hrows, List.length_append, ← h.lines]
    exact houtputs.lines
  · cases output with
    | some chunk => exact .inl ht'
    | none =>
      obtain ⟨hend, hpart, -⟩ := houtputs.ending rfl
      rcases List.mem_cons.mp ht' with he | ht'
      · exact .inr ⟨he, hend, hpart⟩
      · exact .inl ht'

/-- **Every record of a scan** is one. -/
theorem recorded (hr : (recordSystem A Thread execute names scan request).Reachable r) :
    ∃ L, Recorded (arrayLengths A execute names scan request) r L := by
  induction hr with
  | @initial r h =>
    obtain ⟨state, outputs, started, ended⟩ := r
    obtain ⟨rfl, rfl, rfl, rfl⟩ := h
    have hfetched : (scanInit A execute names scan request).fetched = 0 := by
      rw [scanInit, A.initGlobal_eq]
    exact ⟨.start, rfl, fun _ h => absurd h List.not_mem_nil, ⟨.start _, hfetched.symm, rfl⟩,
      fun _ => rfl, fun _ _ => rfl, fun _ h => absurd h List.not_mem_nil,
      fun _ h => absurd h List.not_mem_nil, rfl⟩
  | @step r r' event _ hstep ih =>
    obtain ⟨L, h⟩ := ih
    obtain ⟨hscan, hrecord⟩ := hstep
    cases event with
    | initLocal t =>
      obtain ⟨ht, he⟩ := hrecord
      rw [he]
      exact h.afterInit ht hscan
    | scan t output =>
      obtain ⟨ht, he⟩ := hrecord
      rw [he]
      exact (h.afterScan ht hscan).1

omit [DecidableEq Thread] in
theorem Recorded.rowsOf_eq (h : Recorded sizes r L) (b : Nat) : r.rowsOf b = L.done b := by
  rw [ScanRecord.rowsOf, ← h.log]
  rfl

omit [DecidableEq Thread] in
/-- When the threads are through, nobody has an array, and none is left. -/
theorem Recorded.finished (h : Recorded sizes r L) (hfinished : r.Finished) :
    L.taken = sizes.length ∧ ∀ t, L.part t = none := by
  obtain ⟨hsome, hall⟩ := hfinished
  obtain ⟨t, ht⟩ := List.exists_mem_of_ne_nil _ hsome
  have hlength := h.accounts.length_eq
  rw [(h.ended t (hall t ht)).1] at hlength
  refine ⟨hlength.symm, fun t' => ?_⟩
  by_cases ht' : t' ∈ r.started
  · exact (h.ended t' (hall t' ht')).2
  · have hworking := h.working t'
    rw [h.notStarted t' ht'] at hworking
    exact hworking

/-- **No row is lost, and none is output twice.**  At any time, the outputs hold of each array
its first rows, in order, and `lines_read` counts the rows that they hold.  Each output has
as many rows as its size says, at least one, and no more than fit; a call outputs nothing
only when no array that is left in the stream has rows.  When the threads are through, every
row of every array has been output once. -/
theorem rows_scanned_once
    (hr : (recordSystem A Thread execute names scan request).Reachable r) :
    ((∀ b, ∃ k ≤ (arrayLengths A execute names scan request).getD b 0,
        r.rowsOf b = List.range k) ∧
      r.state.linesRead = r.rows.length ∧
      r.state.linesRead ≤ (arrayLengths A execute names scan request).sum) ∧
    (∀ output ∈ r.outputs, output.size = output.rows.length ∧ 0 < output.size ∧
      output.size ≤ standardVectorSize) ∧
    (∀ t r', (recordSystem A Thread execute names scan request).step r (.scan t none) r' →
      ∀ m ∈ r.state.globalState.stream.lengths, m = 0) ∧
    (r.Finished →
      r.rows.Perm (units (arrayLengths A execute names scan request)) ∧
      (∀ b, r.rowsOf b = List.range ((arrayLengths A execute names scan request).getD b 0)) ∧
      r.state.linesRead = (arrayLengths A execute names scan request).sum) := by
  obtain ⟨L, h⟩ := recorded hr
  refine ⟨⟨fun b => ?_, h.lines, ?_⟩, fun output houtput => ?_, fun t r' hstep => ?_,
    fun hfinished => ?_⟩
  · rw [h.rowsOf_eq]
    exact h.accounts.sound.done_eq b
  · rw [h.lines, ← h.log]
    exact h.accounts.sound.length_log_le
  · obtain ⟨hrows, hpos, hfits⟩ := h.filling output houtput
    exact ⟨hrows, hpos, hfits⟩
  · obtain ⟨hscan, ht, -⟩ := hstep
    exact (h.afterScan ht hscan).2 rfl
  · obtain ⟨htaken, hfree⟩ := h.finished hfinished
    have hperm := h.accounts.sound.log_perm htaken hfree
    rw [h.log] at hperm
    refine ⟨hperm, fun b => ?_, ?_⟩
    · rw [h.rowsOf_eq]
      exact h.accounts.sound.all_done htaken hfree b
    · rw [h.lines, hperm.length_eq, length_units]

end Runs

/-! ## Two threads -/

/-- A remote with five rows, in three arrays. -/
def batchedRemote : String → ArrowArrayStream 2 := answerSelect ⟨'"', '"'⟩ true pairNames [2, 0, 3]

/-- The projection onto both columns of the table in the example, in their own order. -/
def bothColumns : List (ColumnId 2) := (List.finRange 2).map .column

/-- The scans of it by two threads. -/
def batchedSystem : TransitionSystem (ScanRecord Bool 2) (ScanEvent Bool 2) :=
  recordSystem (duckdbArrow 2) Bool batchedRemote pairNames pairScan (pairRequest bothColumns)

/-- The record after a thread has started. -/
def batchedInit (r : ScanRecord Bool 2) (t : Bool) : ScanRecord Bool 2 :=
  let init := (duckdbArrow 2).initLocal r.state.globalState bothColumns
  r.afterInit t ⟨init.1, Function.update r.state.localState t init.2, r.state.linesRead⟩

/-- A call of the scan function by one of the two threads, on the batches of the example. -/
def batchedScan (r : ScanRecord Bool 2) (t : Bool) :
    Option (ScannedChunk 2) × ArrowScanGlobalState 2 × Option (ArrowScanLocalState 2) × Nat :=
  adbcScanFunction (duckdbArrow 2) true r.state.globalState r.state.linesRead
    (r.state.localState t)

/-- The record of the example after a call by one of the two threads has returned. -/
def batchedCall (r : ScanRecord Bool 2) (t : Bool) : ScanRecord Bool 2 :=
  let call := batchedScan r t
  r.afterScan t call.1
    ⟨call.2.1, Function.update r.state.localState t call.2.2.1, call.2.2.2⟩

/-- The record of the example before the threads start, with the batches that the driver will
return. -/
def batchedStart : ScanRecord Bool 2 where
  state := ⟨scanInit (duckdbArrow 2) batchedRemote pairNames pairScan (pairRequest bothColumns),
    fun _ => none, 0⟩
  outputs := []
  started := []
  ended := []

/-- The record of the example at the end.  The second thread is called first, and both until nothing
is left. -/
def batchedEnd : ScanRecord Bool 2 :=
  batchedCall (batchedCall (batchedCall (batchedCall
    (batchedInit (batchedInit batchedStart false) true) true) false) true) false

theorem batchedEnd_reachable : batchedSystem.Reachable batchedEnd := by
  have h₀ : batchedSystem.Reachable batchedStart := .initial ⟨rfl, rfl, rfl, rfl⟩
  have h₁ : batchedSystem.Reachable (batchedInit batchedStart false) :=
    h₀.step (a := .initLocal false) ⟨rfl, by decide, rfl⟩
  have h₂ : batchedSystem.Reachable (batchedInit (batchedInit batchedStart false) true) :=
    h₁.step (a := .initLocal true) ⟨rfl, by decide, rfl⟩
  have hcall : ∀ {r : ScanRecord Bool 2} (t : Bool), batchedSystem.Reachable r → t ∈ r.started →
      batchedSystem.Reachable (batchedCall r t) := fun {r} t hr ht =>
    hr.step (a := .scan t (batchedScan r t).1) ⟨⟨rfl, rfl⟩, ht, rfl⟩
  exact hcall false (hcall true (hcall false (hcall true h₂ (by decide)) (by decide)) (by decide))
    (by decide)

/-- The two threads take the arrays between them, and all five rows have been output, each of them
once. -/
theorem five_rows_scanned_once :
    batchedEnd.Finished ∧ batchedEnd.rows = [(2, 0), (2, 1), (2, 2), (0, 0), (0, 1)] ∧
      batchedEnd.state.linesRead = 5 := by
  have hfinished : batchedEnd.Finished := ⟨by decide, by decide⟩
  exact ⟨hfinished, by decide, ((rows_scanned_once batchedEnd_reachable).2.2.2 hfinished).2.2⟩

end AdbcClient.ArrowScan
