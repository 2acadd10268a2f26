import AdbcClient.InsertBuffer
import AdbcClient.InsertVisibility

/-!
# What `active_chunks` counts

`Sink` adds one to `active_chunks` for each chunk it appends, `get_next` takes one off
for each chunk it scans.  The collection stores rows densely (`dense`), so a chunk
that still fits into the last stored one is counted up and never down.  `drift` is
the difference between the counter and the chunks that a scan will still return: a
step of the pipeline leaves it alone, except that such an append adds one to it
(`drift_step`).

So the counter is 0 at every reset of the buffer, and the limit is hit exactly at
`adbc_insert_buffer_size` chunks, as long as every appended chunk starts a stored one;
after the first that does not, it is never 0 at a reset again (`chunks_accounted`).
-/
namespace AdbcClient
open Runs ColumnDataCollection

variable {Row : Type}

/-! ## Stored chunks -/

/-- The number of rows that fit into the last stored chunk. -/
def lastChunkRoom (store : List Row) : Nat :=
  standardVectorSize * chunksFor store.length - store.length

/-- An appended chunk is one more stored chunk only if it does not fit into the last one. -/
theorem chunksFor_append (store : List Row) (chunk : DataChunk Row) :
    chunksFor (store ++ chunk.rows).length =
      chunksFor store.length + if lastChunkRoom store < chunk.rows.length then 1 else 0 := by
  have hsize := chunk.size_le
  rw [List.length_append]
  by_cases hroom : lastChunkRoom store < chunk.rows.length
  · rw [if_pos hroom]
    simp only [lastChunkRoom, chunksFor, standardVectorSize] at hsize hroom ⊢
    omega
  · rw [if_neg hroom]
    simp only [lastChunkRoom, chunksFor, standardVectorSize] at hsize hroom ⊢
    omega

/-- At the end of a scan no chunk is left, before and after. -/
theorem left_at_end {store : List Row} {p p' : DenseScan} (h : denseScan store p = (none, p')) :
    (dense Row).left store p = 0 ∧ (dense Row).left store p' = 0 := by
  obtain ⟨hbefore, hafter⟩ := rowsFrom_none h
  have hnone : chunksFor 0 = 0 := by decide
  constructor
  · show chunksFor (rowsFrom store p).length = 0
    rw [hbefore, List.length_nil, hnone]
  · show chunksFor (rowsFrom store p').length = 0
    rw [hafter, List.length_nil, hnone]

@[simp] theorem Configuration.testSink_stream {D : ColumnDataCollection Row}
    (settings : InsertSettings) (chunk : DataChunk Row) (firstChunk exhaustedMemory : Bool)
    (c : Configuration D) :
    (c.testSink settings chunk firstChunk exhaustedMemory).stream = c.stream := by
  rcases c.testSink_cases settings chunk firstChunk exhaustedMemory with
    ⟨_, _, he⟩ | ⟨_, _, he⟩ | ⟨_, _, he⟩ <;> rw [he]

/-! ## Drift -/

/-- `Sink` does not wait for the buffer to be emptied, and does not return. -/
def Configuration.Appends {D : ColumnDataCollection Row} (c : Configuration D) : Prop :=
  (c.state.full = false ∨ c.state.done = true) ∧ c.state.canceled = false

/-- If these rows are appended now, they do not fit into the last stored chunk. -/
def Configuration.StartsChunk (c : Configuration (dense Row)) (rows : List Row) : Prop :=
  c.Appends → lastChunkRoom c.state.collection < rows.length

/-- Every chunk that `Sink` appends starts a stored one. -/
def StartsChunks (c : Configuration (dense Row)) : InsertAction Row → Prop
  | .sink chunk _ => c.StartsChunk chunk.rows
  | .sinkResume _ => c.StartsChunk c.producer.pending
  | _ => True

/-- How many chunks `active_chunks` counts that no scan will return. -/
def drift (c : Configuration (dense Row)) : Int :=
  c.state.activeChunks - chunksLeft c.stream c.state.collection

/-- Only where the buffer and the stream stand matters. -/
theorem drift_congr {c d : Configuration (dense Row)}
    (hactive : d.state.activeChunks = c.state.activeChunks)
    (hcollection : d.state.collection = c.state.collection) (hs : d.stream = c.stream) :
    drift d = drift c := by
  rw [drift, drift, hactive, hcollection, hs]

/-- Rows are appended in front of a scan, so a new stored chunk is one more to come. -/
theorem chunksLeft_append {stream : BoundStream (dense Row)} (store : (dense Row).Store)
    (hs : stream ≠ .released)
    (hfresh : ∀ scanState, stream = .bound scanState → scanState = (dense Row).initializeScan)
    (chunk : DataChunk Row) :
    chunksLeft stream ((dense Row).append store chunk) =
      chunksLeft stream store + if lastChunkRoom store < chunk.rows.length then 1 else 0 := by
  cases stream with
  | notCreated => exact chunksFor_append store chunk
  | released => exact absurd rfl hs
  | bound scanState =>
    rw [hfresh scanState rfl]
    exact chunksFor_append store chunk

theorem drift_testSink {settings : InsertSettings} {chunk : DataChunk Row}
    {firstChunk exhaustedMemory : Bool} {c : Configuration (dense Row)} (hl : Lifecycle c)
    (hfresh : c.state.full = false → c.state.done = false →
      ∀ scanState, c.stream = .bound scanState → scanState = (dense Row).initializeScan)
    (hp : c.producer.Sinking) (hs : c.stream ≠ .released) :
    (c.StartsChunk chunk.rows →
      drift (c.testSink settings chunk firstChunk exhaustedMemory) = drift c) ∧
    (¬ c.StartsChunk chunk.rows →
      drift (c.testSink settings chunk firstChunk exhaustedMemory) = drift c + 1) := by
  rcases c.testSink_cases settings chunk firstChunk exhaustedMemory with
    ⟨hfull, hdone, he⟩ | ⟨_, hcanceled, he⟩ | ⟨hpred, hcanceled, he⟩
  · have hstarts : c.StartsChunk chunk.rows := by
      rintro ⟨hf | hd, -⟩
      · rw [hfull] at hf
        cases hf
      · rw [hdone] at hd
        cases hd
    rw [he]
    exact ⟨fun _ => drift_congr rfl rfl rfl, absurd hstarts⟩
  · have hstarts : c.StartsChunk chunk.rows := by
      rintro ⟨-, hc⟩
      rw [hcanceled] at hc
      cases hc
    rw [he]
    exact ⟨fun _ => drift_congr rfl rfl rfl, absurd hstarts⟩
  · -- nobody has set `done`, so the buffer is not full and the scan is at its beginning
    have hdone := hl.done_eq_false hp hcanceled hs
    have hfull := hpred.resolve_right (by simp [hdone])
    obtain ⟨_, _, _, hcollection, _, hactive, _⟩ :=
      c.state.insertChunk_flags settings firstChunk exhaustedMemory chunk
    have hleft := chunksLeft_append c.state.collection hs (hfresh hfull hdone) chunk
    rw [he]
    simp only [drift, hactive, hcollection, hleft]
    constructor
    · intro hstarts
      rw [if_pos (hstarts ⟨hpred, hcanceled⟩)]
      omega
    · intro hstarts
      rw [if_neg fun hroom => hstarts fun _ => hroom]
      omega

theorem drift_testGetNext {scanState : (dense Row).ScanState} {c : Configuration (dense Row)}
    (hs : c.stream = .bound scanState) : drift (c.testGetNext scanState) = drift c := by
  rcases c.testGetNext_cases scanState with
    ⟨_, _, he⟩ | ⟨chunk, next, _, hscan, he⟩ | ⟨next, _, hscan, he⟩ | ⟨next, _, _, hscan, he⟩
  · rw [he]
    exact drift_congr rfl rfl rfl
  · have hleft : (dense Row).left c.state.collection scanState =
        (dense Row).left c.state.collection next + 1 := chunksFor_scan hscan
    rw [he]
    simp only [drift, hs, chunksLeft, hleft]
    omega
  · have hleft : (dense Row).left c.state.collection scanState = 0 := (left_at_end hscan).1
    rw [he]
    simp only [drift, hs, chunksLeft, hleft, (dense Row).left_empty]
  · have hleft : (dense Row).left c.state.collection scanState =
        (dense Row).left c.state.collection next :=
      (left_at_end hscan).1.trans (left_at_end hscan).2.symm
    rw [he]
    simp only [drift, hs, chunksLeft, hleft]

/-- **What a step does to the drift.**  It adds one for a chunk that is appended to the
last stored one, and nothing else. -/
theorem drift_step {settings : InsertSettings} {c d : Configuration (dense Row)}
    {a : InsertAction Row} (hl : Lifecycle c) (hd : Delivering c) (hs : Step settings c a d)
    (hreleased : d.stream ≠ .released) :
    c.stream ≠ .released ∧ (StartsChunks c a → drift d = drift c) ∧
      (¬ StartsChunks c a → drift d = drift c + 1) := by
  cases hs with
  | sink chunk exhaustedMemory hp hn =>
    have hstream := (c.enterSink chunk).testSink_stream settings chunk c.state.firstInsert
      exhaustedMemory
    have hentered := hl.enterSink chunk
    rw [Configuration.enterSink_eq] at hreleased hstream hentered ⊢
    rw [hstream] at hreleased
    have hsinking : c.producer.Sinking := by rw [hp]; trivial
    exact ⟨hreleased, drift_testSink hentered hd.fresh hsinking hreleased⟩
  | @sinkResume chunk firstChunk exhaustedMemory hp =>
    rw [c.testSink_stream settings chunk firstChunk exhaustedMemory] at hreleased
    have hpending : c.producer.pending = chunk.rows := by rw [hp]; rfl
    rw [StartsChunks, hpending]
    exact ⟨hreleased, drift_testSink hl hd.fresh (by rw [hp]; trivial) hreleased⟩
  | getNext hc hs =>
    exact ⟨by rw [hs]; exact nofun, fun _ => drift_testGetNext hs, fun h => absurd trivial h⟩
  | getNextResume hc hs =>
    exact ⟨by rw [hs]; exact nofun, fun _ => drift_testGetNext hs, fun h => absurd trivial h⟩
  | @getNextReturn out hc =>
    have he : (c.returnArray out).state = c.state ∧ (c.returnArray out).stream = c.stream := by
      rcases c.returnArray_cases out with ⟨_, he⟩ | ⟨_, _, _, he⟩ | ⟨_, _, he⟩ <;>
      simp only [he, and_self]
    rw [he.2] at hreleased
    exact ⟨hreleased, fun _ => drift_congr (by rw [he.1]) (by rw [he.1]) he.2,
      fun h => absurd trivial h⟩
  | createStream hc =>
    have hstream := hl.notCreated_of_starting hc
    refine ⟨by rw [hstream]; exact nofun, fun _ => ?_, fun h => absurd trivial h⟩
    rw [drift, drift, hstream]
    rfl
  | release hc hs => exact absurd rfl hreleased
  | _ => exact ⟨hreleased, fun _ => rfl, fun h => absurd trivial h⟩

/-- Where the scan has reached the end, the counter shows the drift. -/
theorem activeChunks_at_reset {c : Configuration (dense Row)} {scanState : (dense Row).ScanState}
    (hs : c.stream = .bound scanState) (hresets : c.state.resets scanState = true) :
    c.state.activeChunks = drift c := by
  rcases c.state.readChunk_cases scanState with
    ⟨_, _, _, hr, -⟩ | ⟨next, hscan, -⟩ | ⟨_, _, _, hr, -⟩
  · rw [hresets] at hr
    cases hr
  · have hleft : (dense Row).left c.state.collection scanState = 0 := (left_at_end hscan).1
    simp only [drift, hs, chunksLeft, hleft]
    omega
  · rw [hresets] at hr
    cases hr

/-! ## Runs -/

section Runs
variable {settings : InsertSettings}

/-- The drift is not negative before the release: a scan of the buffer returns no more chunks than
the counter has counted. -/
theorem drift_nonneg {c : Configuration (dense Row)}
    (h : (insertSystem (dense Row) settings).Reachable c) : c.stream ≠ .released → 0 ≤ drift c := by
  refine h.invariant (I := fun c => c.stream ≠ .released → 0 ≤ drift c) ?_ ?_
  · rintro _ rfl _
    show (0 : Int) ≤ 0 - ((dense Row).left (dense Row).empty (dense Row).initializeScan : Int)
    rw [(dense Row).left_empty]
    decide
  · intro c a d hr hc hs hreleased
    obtain ⟨hreleased', hsame, hmore⟩ := drift_step (lifecycle hr) (delivering hr) hs hreleased
    have hnonneg := hc hreleased'
    by_cases hstarts : StartsChunks c a
    · rw [hsame hstarts]
      exact hnonneg
    · rw [hmore hstarts]
      omega

/-- **Once the counter has drifted, it stays so.** -/
theorem drift_persists {c d e : Configuration (dense Row)} {a : InsertAction Row}
    (h : (insertSystem (dense Row) settings).Reachable c) (hs : Step settings c a d)
    (hstarts : ¬ StartsChunks c a)
    (hafter : ((insertSystem (dense Row) settings).startingAt d).Reachable e) :
    e.stream ≠ .released → 1 ≤ drift e := by
  have hfirst : d.stream ≠ .released → 1 ≤ drift d := by
    intro hreleased
    obtain ⟨hreleased', _, hmore⟩ := drift_step (lifecycle h) (delivering h) hs hreleased
    have hnonneg := drift_nonneg h hreleased'
    rw [hmore hstarts]
    omega
  refine ((h.step hs).after (Q := fun e => e.stream ≠ .released → 1 ≤ drift e) hfirst ?_ hafter).2
  intro e a e' hr he hs hreleased
  obtain ⟨hreleased', hsame, hmore⟩ := drift_step (lifecycle hr) (delivering hr) hs hreleased
  have hone := he hreleased'
  by_cases hstarts : StartsChunks e a
  · rw [hsame hstarts]
    exact hone
  · rw [hmore hstarts]
    omega

/-- If every appended chunk starts a stored one, the counter does not drift. -/
theorem drift_eq_zero {c : Configuration (dense Row)}
    (h : ((insertSystem (dense Row) settings).restrict StartsChunks).Reachable c) :
    c.stream ≠ .released → drift c = 0 := by
  refine h.invariant (I := fun c => c.stream ≠ .released → drift c = 0) ?_ ?_
  · rintro _ rfl _
    show (0 : Int) - ((dense Row).left (dense Row).empty (dense Row).initializeScan : Int) = 0
    rw [(dense Row).left_empty]
    decide
  · intro c a d hr hc hs hreleased
    obtain ⟨hreleased', hsame, -⟩ :=
      drift_step (lifecycle hr.of_restrict) (delivering hr.of_restrict) hs.2 hreleased
    rw [hsame hs.1]
    exact hc hreleased'

/-- **The counter counts the chunks since the last reset.** -/
structure Counted (settings : InsertSettings) (c : Configuration (dense Row)) : Prop where
  /-- While chunks may come, the counter is that of the chunks appended since the last reset. -/
  counted : c.producer.Sinking → c.state.canceled = false → c.state.full = false →
    c.state.activeChunks = c.appended
  room : settings.materializeInput = false → c.state.full = false →
    (c.appended : Int) < settings.maxChunks

namespace Counted

theorem initial (hmax : 1 ≤ settings.maxChunks) : Counted settings (.initial (dense Row)) where
  counted _ _ _ := rfl
  room _ _ := by
    show (0 : Int) < settings.maxChunks
    omega

theorem enterSink {c : Configuration (dense Row)} (h : Counted settings c)
    (chunk : DataChunk Row) : Counted settings (c.enterSink chunk) := by
  rw [Configuration.enterSink_eq]
  exact ⟨h.counted, h.room⟩

theorem testSink {chunk : DataChunk Row} {firstChunk exhaustedMemory : Bool}
    {c : Configuration (dense Row)} (h : Counted settings c) (hp : c.producer.Sinking) :
    Counted settings (c.testSink settings chunk firstChunk exhaustedMemory) := by
  rcases c.testSink_cases settings chunk firstChunk exhaustedMemory with
    ⟨_, _, he⟩ | ⟨_, _, he⟩ | ⟨_, hcanceled, he⟩
  · rw [he]
    exact ⟨fun _ => h.counted hp, h.room⟩
  · rw [he]
    exact ⟨fun _ => h.counted hp, h.room⟩
  · obtain ⟨_, _, _, _, _, hactive, hsets⟩ :=
      c.state.insertChunk_flags settings firstChunk exhaustedMemory chunk
    -- a buffer that is open after the chunk has been open before
    have hcounted : (c.state.insertChunk settings firstChunk exhaustedMemory chunk).full = false →
        c.state.activeChunks = c.appended := by
      intro hopen
      refine h.counted hp hcanceled ?_
      by_contra hfull
      rw [hsets (Bool.not_eq_false _ ▸ hfull)] at hopen
      cases hopen
    rw [he]
    refine ⟨fun _ _ hopen => ?_, fun hmaterialize hopen => ?_⟩
    · have hbefore := hcounted hopen
      simp only [hactive]
      omega
    · have hbefore := hcounted hopen
      have hlimit := below_limit hmaterialize hopen
      show ((c.appended + 1 : Nat) : Int) < settings.maxChunks
      omega

theorem testGetNext (hmax : 1 ≤ settings.maxChunks) {scanState : (dense Row).ScanState}
    {c : Configuration (dense Row)} (hl : Lifecycle c) (h : Counted settings c)
    (hs : c.stream = .bound scanState) (hdrift : drift c = 0) :
    Counted settings (c.testGetNext scanState) := by
  rcases c.testGetNext_cases scanState with
    ⟨_, _, he⟩ | ⟨_, _, hpred, _, he⟩ | ⟨_, hfull, hscan, he⟩ | ⟨_, _, _, _, he⟩
  · rw [he]
    exact ⟨h.counted, h.room⟩
  · rw [he]
    refine ⟨fun hp hcanceled hopen => ?_, h.room⟩
    have hdone := hl.done_eq_false hp hcanceled (by rw [hs]; exact nofun)
    rcases hpred with hpred | hpred
    · exact absurd (hpred.symm.trans hopen) (by decide)
    · exact absurd (hpred.symm.trans hdone) (by decide)
  · have hresets : c.state.resets scanState = true := by
      simp [AdbcInsertGlobalState.resets, hscan, hfull]
    have hactive := (activeChunks_at_reset hs hresets).trans hdrift
    rw [he]
    refine ⟨fun _ _ _ => hactive, fun _ _ => ?_⟩
    show (0 : Int) < settings.maxChunks
    omega
  · rw [he]
    exact ⟨h.counted, h.room⟩

/-- A thread moves on and leaves the buffer alone. -/
theorem moved {c : Configuration (dense Row)} (h : Counted settings c) {producer : Producer Row}
    (hp : producer.Sinking → c.producer.Sinking) (consumer : Consumer Row) (destroyer : Destroyer) :
    Counted settings
      { c with producer := producer, consumer := consumer, destroyer := destroyer } :=
  ⟨fun hx => h.counted (hp hx), h.room⟩

/-- **A step keeps the count**, where the counter has not drifted. -/
theorem step (hmax : 1 ≤ settings.maxChunks) {c d : Configuration (dense Row)}
    {a : InsertAction Row} (hl : Lifecycle c) (hdrift : c.stream ≠ .released → drift c = 0)
    (h : Counted settings c) (hs : Step settings c a d) : Counted settings d := by
  cases hs with
  | sink chunk exhaustedMemory hp hn =>
    refine (h.enterSink chunk).testSink ?_
    rw [Configuration.enterSink_eq, hp]
    trivial
  | sinkResume exhaustedMemory hp => exact h.testSink (by rw [hp]; trivial)
  | getNext hc hs => exact h.testGetNext hmax hl hs (hdrift (by rw [hs]; exact nofun))
  | getNextResume hc hs => exact h.testGetNext hmax hl hs (hdrift (by rw [hs]; exact nofun))
  | @getNextReturn out hc =>
    rcases c.returnArray_cases out with ⟨_, he⟩ | ⟨_, _, _, he⟩ | ⟨_, _, he⟩
    · rw [he]
      exact ⟨h.counted, h.room⟩
    · rw [he]
      exact ⟨h.counted, h.room⟩
    · rw [he]
      exact ⟨h.counted, h.room⟩
  | finalize hp hn => exact ⟨False.elim, h.room⟩
  | destroy hn hj hd => exact ⟨fun _ hcanceled => (by cases hcanceled), h.room⟩
  | sinkNotify hp => exact h.moved (by rw [hp]; exact id) _ _
  | finalizeNotify hp => exact h.moved (by exact False.elim) _ _
  | finalizeJoined hp hj => exact h.moved (by exact False.elim) _ _
  | destroyNotifyProducer hd => exact h.moved (Producer.sinking_notify _).mp _ _
  | getNextNotify hc => exact h.moved (Producer.sinking_notify _).mp _ _
  | releaseNotify hc => exact h.moved (Producer.sinking_notify _).mp _ _
  | wakeProducer => exact h.moved (Producer.sinking_notify _).mp _ _
  | destroyNotifyConsumer hd => exact h.moved id _ _
  | destroyJoined hd hj => exact h.moved id _ _
  | wakeConsumer => exact h.moved id _ _
  | createStream hc => exact ⟨h.counted, h.room⟩
  | release hc hs => exact ⟨h.counted, h.room⟩
  | exit status rowsAffected hc hs => exact ⟨h.counted, h.room⟩

end Counted

theorem counted (hmax : 1 ≤ settings.maxChunks) {c : Configuration (dense Row)}
    (h : ((insertSystem (dense Row) settings).restrict StartsChunks).Reachable c) :
    Counted settings c :=
  h.invariant (fun _ hc => hc ▸ .initial hmax) (fun _ _ _ hr hc hs =>
    hc.step hmax (lifecycle hr.of_restrict) (drift_eq_zero hr) hs.2)

end Runs

/-! ## The limit -/

/-- **The chunks are accounted for**: the counter is that of the chunks in the buffer, and the limit
is hit where the setting says. -/
structure Accounted (settings : InsertSettings) (c : Configuration (dense Row)) : Prop where
  /-- The counter is 0 where `get_next` resets the buffer. -/
  reset : ∀ scanState, c.stream = .bound scanState → c.state.resets scanState = true →
    c.state.activeChunks = 0
  /-- But for the first chunk and the memory, `Sink` marks the buffer full with the chunk
  that makes `adbc_insert_buffer_size` since the last reset, and no other. -/
  limit : settings.materializeInput = false → c.producer.Sinking → c.state.canceled = false →
    c.state.full = false → ∀ chunk, (c.state.insertChunk settings false false chunk).full = true ↔
      ((c.appended + 1 : Nat) : Int) = settings.maxChunks

/-- **When the chunks are accounted for.**  In a run in which every appended chunk starts a stored
one, the counter is 0 where `get_next` resets the buffer, and `Sink` marks the buffer full with the
chunk that the setting says.  After a step that appends to a chunk already stored, the counter is
not 0 at any later reset. -/
theorem chunks_accounted (settings : InsertSettings) (hmax : 1 ≤ settings.maxChunks) :
    (∀ c, ((insertSystem (dense Row) settings).restrict StartsChunks).Reachable c →
      Accounted settings c) ∧
    ∀ c a d, (insertSystem (dense Row) settings).Reachable c → Step settings c a d →
      ¬ StartsChunks c a →
      ∀ e scanState, ((insertSystem (dense Row) settings).startingAt d).Reachable e →
        e.stream = .bound scanState → e.state.resets scanState = true →
        e.state.activeChunks ≠ 0 := by
  refine ⟨fun c h => ⟨fun scanState hs hresets => ?_, ?_⟩, ?_⟩
  · rw [activeChunks_at_reset hs hresets]
    exact drift_eq_zero h (by rw [hs]; exact nofun)
  · intro hmaterialize hp hcanceled hfull chunk
    have hcounted := (counted hmax h).counted hp hcanceled hfull
    have hroom := (counted hmax h).room hmaterialize hfull
    have hlimit : (c.state.insertChunk settings false false chunk).full = true ↔
        settings.maxChunks ≤ c.state.activeChunks + 1 := by
      by_cases hhit : settings.maxChunks ≤ c.state.activeChunks + 1
      · simp [AdbcInsertGlobalState.insertChunk, hmaterialize, hhit]
      · simp [AdbcInsertGlobalState.insertChunk, hmaterialize, hhit, hfull]
    rw [hlimit]
    omega
  · intro c a d h hs hstarts e scanState hafter hstream hresets
    have hdrift := drift_persists h hs hstarts hafter (by rw [hstream]; exact nofun)
    rw [activeChunks_at_reset hstream hresets]
    omega

/-- The buffer has been handed over once and read again, while `Sink` waits.  The counter is 0. -/
theorem two_chunks_accounted :
    ∃ c scanState,
      ((insertSystem (dense Nat) ⟨false, 1⟩).restrict StartsChunks).Reachable c ∧
      c.producer.pending = [2] ∧ c.received = [[0], [], [1]] ∧
      c.stream = .bound scanState ∧ c.state.resets scanState = true ∧
      Accounted ⟨false, 1⟩ c := by
  have start : ((insertSystem (dense Nat) ⟨false, 1⟩).restrict StartsChunks).Reachable
    (.initial _) := .initial rfl
  have sunk := start.step_restrict (.sink ⟨[0], by decide⟩ false rfl rfl)
    fun _ => (by decide : lastChunkRoom ([] : List Nat) < 1)
  have bound := (sunk.step_restrict (.sinkNotify rfl) trivial).step_restrict (.createStream rfl)
    trivial
  have waiting := bound.step_restrict (.sink ⟨[1], by decide⟩ false rfl rfl)
    fun happends => by rcases happends.1 with h | h <;> cases h
  have received := ((waiting.step_restrict (.getNext rfl rfl) trivial).step_restrict
    (.getNextNotify rfl) trivial).step_restrict (.getNextReturn rfl) trivial
  have reset := ((received.step_restrict (.getNext rfl rfl) trivial).step_restrict
    (.getNextNotify rfl) trivial).step_restrict (.getNextReturn rfl) trivial
  -- the second round
  have resumed : ((insertSystem (dense Nat) ⟨false, 1⟩).restrict StartsChunks).Reachable
      ⟨⟨false, false, true, false, 1, none, 2, 0, [1]⟩, .ready, .notStarted, .running,
        .bound (.atChunk 0), [⟨[0], by decide⟩, ⟨[1], by decide⟩], [[0], []], false, false, 1⟩ :=
    (reset.step_restrict (.sinkResume false rfl) fun _ =>
      (by decide : lastChunkRoom ([] : List Nat) < 1)).step_restrict (.sinkNotify rfl) trivial
  have another := resumed.step_restrict (.sink ⟨[2], by decide⟩ false rfl rfl)
    fun happends => by rcases happends.1 with h | h <;> cases h
  have reread := ((another.step_restrict (.getNext rfl rfl) trivial).step_restrict
    (.getNextNotify rfl) trivial).step_restrict (.getNextReturn rfl) trivial
  exact ⟨_, _, reread, rfl, rfl, rfl, rfl, (chunks_accounted ⟨false, 1⟩ (by decide)).1 _ reread⟩

/-- Two chunks of one row are stored as one.  The counter is 1 at the reset. -/
theorem small_chunks_not_accounted :
    ∃ c, (insertSystem (dense Nat) ⟨false, 2⟩).Reachable c ∧ ¬ Accounted ⟨false, 2⟩ c := by
  have start : (insertSystem (dense Nat) ⟨false, 2⟩).Reachable (.initial _) := .initial rfl
  have sunk := start.step (.sink ⟨[0], by decide⟩ false rfl rfl)
  have bound := (sunk.step (.sinkNotify rfl)).step (.createStream rfl)
  have read := (bound.step (.getNext rfl rfl)).step (.getNextNotify rfl)
  have received := read.step (.getNextReturn rfl)
  have reset := (received.step (.getNext rfl rfl)).step (.getNextNotify rfl)
  have emptied := reset.step (.getNextReturn rfl)
  -- the second round
  have second := (emptied.step (.sink ⟨[1], by decide⟩ false rfl rfl)).step (.sinkNotify rfl)
  have third := (second.step (.sink ⟨[2], by decide⟩ false rfl rfl)).step (.sinkNotify rfl)
  have reread := (third.step (.getNext rfl rfl)).step (.getNextNotify rfl)
  have both := reread.step (.getNextReturn rfl)
  refine ⟨_, both, fun h => ?_⟩
  have hzero := h.reset _ rfl rfl
  revert hzero
  decide

end AdbcClient
