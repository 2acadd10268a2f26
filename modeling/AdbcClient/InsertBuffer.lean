import AdbcClient.InsertDelivery

/-!
# The size of the insert buffer

`Sink` marks the buffer full when it holds `adbc_insert_buffer_size` chunks and waits
until the insert thread has emptied it.  The wait also ends when `done` is set, and
the release of the stream sets it: after the insert thread has failed, `Sink` goes on
filling a full buffer that nobody reads (`failed_insert_overfills`).

As long as no `Sink` passes its wait on a full buffer, the buffer stays within the limit
(`within_limit`).  `active_chunks` counts stored chunks down and appended ones up, so
it never falls below the number of chunks appended since the last reset, and the limit
is not noticed too late (`Bounded.counted`).
-/
namespace AdbcClient
open Runs

variable {Row : Type} {D : ColumnDataCollection Row}

/-- No `Sink` gets past its wait, to append, while the buffer is marked full. -/
def RespectsFull (c : Configuration D) : InsertAction Row → Prop
  | .sink _ _ => c.state.full = true → c.state.done = true → c.state.canceled = true
  | .sinkResume _ => c.state.full = true → c.state.done = true → c.state.canceled = true
  | _ => True

/-- The chunks a scan of the buffer will still return. -/
def chunksLeft (stream : BoundStream D) (store : D.Store) : Nat :=
  match stream with
  | .notCreated => D.left store D.initializeScan
  | .bound scanState => D.left store scanState
  | .released => 0

/-- **The buffer is within its limit**, and what the counters have to do with it. -/
structure Bounded (settings : InsertSettings) (c : Configuration D) : Prop where
  bound : (c.appended : Int) ≤ settings.maxChunks
  /-- A buffer that is not marked full has room. -/
  room : c.state.full = false → (c.appended : Int) < settings.maxChunks
  /-- While chunks may come, none of those appended is missing in the count. -/
  counted : c.producer.Sinking → c.state.canceled = false → c.state.full = false →
    (c.appended : Int) ≤ c.state.activeChunks
  remaining : c.producer.Sinking → c.state.canceled = false → c.stream ≠ .released →
    (chunksLeft c.stream c.state.collection : Int) ≤ c.state.activeChunks

/-- A chunk that does not fill the buffer stays below the limit. -/
theorem below_limit {settings : InsertSettings} (hmaterialize : settings.materializeInput = false)
    {firstChunk exhaustedMemory : Bool} {chunk : DataChunk Row} {g : AdbcInsertGlobalState D}
    (h : (g.insertChunk settings firstChunk exhaustedMemory chunk).full = false) :
    g.activeChunks + 1 < settings.maxChunks := by
  by_contra hlimit
  have hhit : settings.maxChunks ≤ g.activeChunks + 1 := Int.not_lt.mp hlimit
  have hfull : (g.insertChunk settings firstChunk exhaustedMemory chunk).full = true := by
    simp [AdbcInsertGlobalState.insertChunk, hmaterialize, hhit]
  rw [hfull] at h
  cases h

namespace Bounded
variable {settings : InsertSettings}

theorem initial (hmax : 1 ≤ settings.maxChunks) : Bounded settings (.initial D) where
  bound := by
    show (0 : Int) ≤ settings.maxChunks
    omega
  room _ := by
    show (0 : Int) < settings.maxChunks
    omega
  counted _ _ _ := Int.le_refl 0
  remaining _ _ _ := by
    show (D.left D.empty D.initializeScan : Int) ≤ 0
    rw [D.left_empty]
    exact Int.le_refl 0

theorem testSink (hmaterialize : settings.materializeInput = false) {chunk : DataChunk Row}
    {firstChunk exhaustedMemory : Bool} {c : Configuration D} (hl : Lifecycle c)
    (hfresh : c.state.full = false → c.state.done = false →
      ∀ scanState, c.stream = .bound scanState → scanState = D.initializeScan)
    (h : Bounded settings c) (hp : c.producer.Sinking)
    (hok : c.state.full = true → c.state.done = true → c.state.canceled = true) :
    Bounded settings (c.testSink settings chunk firstChunk exhaustedMemory) := by
  rcases c.testSink_cases settings chunk firstChunk exhaustedMemory with
    ⟨_, _, he⟩ | ⟨_, _, he⟩ | ⟨hpred, hcanceled, he⟩
  · rw [he]
    exact ⟨h.bound, h.room, fun _ => h.counted hp, fun _ => h.remaining hp⟩
  · rw [he]
    exact ⟨h.bound, h.room, fun _ => h.counted hp, fun _ => h.remaining hp⟩
  · have hfull : c.state.full = false := by
      by_contra hfull
      rw [Bool.not_eq_false] at hfull
      have hdone := hpred.resolve_left (by simp [hfull])
      rw [hok hfull hdone] at hcanceled
      cases hcanceled
    obtain ⟨_, _, _, hcollection, _, hactive, _⟩ :=
      c.state.insertChunk_flags settings firstChunk exhaustedMemory chunk
    have hroom := h.room hfull
    have hcounted := h.counted hp hcanceled hfull
    rw [he]
    refine ⟨?_, fun hf => ?_, fun _ _ _ => ?_, fun _ _ hs => ?_⟩
    · show ((c.appended + 1 : Nat) : Int) ≤ settings.maxChunks
      omega
    · have hlimit := below_limit hmaterialize hf
      show ((c.appended + 1 : Nat) : Int) < settings.maxChunks
      omega
    · simp only [hactive]
      omega
    · -- the scan, if there is one, is at the beginning of the buffer
      have hs' : c.stream ≠ .released := hs
      have hremaining := h.remaining hp hcanceled hs'
      have happend := D.left_append c.state.collection chunk
      have hstart : chunksLeft c.stream c.state.collection =
          D.left c.state.collection D.initializeScan ∧
          chunksLeft c.stream (D.append c.state.collection chunk) =
            D.left (D.append c.state.collection chunk) D.initializeScan := by
        cases hstream : c.stream with
        | notCreated => exact ⟨rfl, rfl⟩
        | released => exact absurd hstream hs'
        | bound scanState =>
          have hdone := hl.done_eq_false hp hcanceled hs'
          rw [hfresh hfull hdone scanState hstream]
          exact ⟨rfl, rfl⟩
      rw [hstart.1] at hremaining
      simp only [hactive, hcollection, hstart.2]
      omega

theorem testGetNext (hmax : 1 ≤ settings.maxChunks) {scanState : D.ScanState}
    {c : Configuration D} (hl : Lifecycle c) (h : Bounded settings c)
    (hs : c.stream = .bound scanState) : Bounded settings (c.testGetNext scanState) := by
  have hreleased : c.stream ≠ .released := by rw [hs]; exact nofun
  have hremaining : c.producer.Sinking → c.state.canceled = false →
      (D.left c.state.collection scanState : Int) ≤ c.state.activeChunks := by
    intro hp hcanceled
    have hleft := h.remaining hp hcanceled hreleased
    rwa [hs] at hleft
  -- with chunks still to come, `get_next` reads a full buffer only
  have hdone : c.producer.Sinking → c.state.canceled = false → c.state.done = false :=
    fun hp hcanceled => hl.done_eq_false hp hcanceled hreleased
  rcases c.testGetNext_cases scanState with
    ⟨_, _, he⟩ | ⟨chunk, next, hpred, hscan, he⟩ | ⟨next, hfull, hscan, he⟩ |
      ⟨next, hfull, hdone', hscan, he⟩
  · rw [he]
    exact ⟨h.bound, h.room, h.counted, h.remaining⟩
  · rw [he]
    refine ⟨h.bound, h.room, fun hp hcanceled hf => ?_, fun hp hcanceled _ => ?_⟩
    · rcases hpred with hpred | hpred
      · exact absurd (hpred.symm.trans hf) (by decide)
      · exact absurd (hpred.symm.trans (hdone hp hcanceled)) (by decide)
    · have hleft := hremaining hp hcanceled
      have hscanned := D.left_scan hscan
      show (D.left c.state.collection next : Int) ≤ c.state.activeChunks - 1
      omega
  · rw [he]
    refine ⟨?_, fun _ => ?_, fun hp hcanceled _ => ?_, fun hp hcanceled _ => ?_⟩
    · show (0 : Int) ≤ settings.maxChunks
      omega
    · show (0 : Int) < settings.maxChunks
      omega
    · have hleft := hremaining hp hcanceled
      show (0 : Int) ≤ c.state.activeChunks
      omega
    · have hleft := hremaining hp hcanceled
      show (D.left D.empty D.initializeScan : Int) ≤ c.state.activeChunks
      rw [D.left_empty]
      omega
  · rw [he]
    refine ⟨h.bound, h.room, h.counted, fun hp hcanceled _ => ?_⟩
    exact absurd (hdone'.symm.trans (hdone hp hcanceled)) (by decide)

theorem enterSink {c : Configuration D} (h : Bounded settings c)
    (chunk : DataChunk Row) : Bounded settings (c.enterSink chunk) := by
  rw [Configuration.enterSink_eq]
  exact ⟨h.bound, h.room, h.counted, h.remaining⟩

theorem returnArray {out : Option (List Row)} {c : Configuration D} (h : Bounded settings c) :
    Bounded settings (c.returnArray out) := by
  unfold Configuration.returnArray
  split
  · exact ⟨h.bound, h.room, h.counted, h.remaining⟩
  · split
    · exact ⟨h.bound, h.room, h.counted, h.remaining⟩
    · exact ⟨h.bound, h.room, h.counted, h.remaining⟩

/-- A thread moves on and leaves the buffer alone. -/
theorem moved {c : Configuration D} (h : Bounded settings c) {producer : Producer Row}
    (hp : producer.Sinking → c.producer.Sinking) (consumer : Consumer Row) (destroyer : Destroyer) :
    Bounded settings
      { c with producer := producer, consumer := consumer, destroyer := destroyer } :=
  ⟨h.bound, h.room, fun hx => h.counted (hp hx), fun hx => h.remaining (hp hx)⟩

/-- **A step that respects a full buffer stays within the limit.** -/
theorem step (hmax : 1 ≤ settings.maxChunks) (hmaterialize : settings.materializeInput = false)
    {c d : Configuration D} {a : InsertAction Row} (hl : Lifecycle c) (hd : Delivering c)
    (h : Bounded settings c) (hok : RespectsFull c a) (hs : Step settings c a d) :
    Bounded settings d := by
  cases hs with
  | sink chunk exhaustedMemory hp hn =>
    have hsinking : c.producer.Sinking := by rw [hp]; trivial
    refine testSink hmaterialize (hl.enterSink chunk) ?_ (h.enterSink chunk) ?_ ?_
    · rw [Configuration.enterSink_eq]
      exact hd.fresh
    · rw [Configuration.enterSink_eq]
      exact hsinking
    · rw [Configuration.enterSink_eq]
      exact hok
  | sinkResume exhaustedMemory hp =>
    exact testSink hmaterialize hl hd.fresh h (by rw [hp]; trivial) hok
  | getNext hc hs => exact testGetNext hmax hl h hs
  | getNextResume hc hs => exact testGetNext hmax hl h hs
  | getNextReturn hc => exact h.returnArray
  | createStream hc =>
    have hstream := hl.notCreated_of_starting hc
    refine ⟨h.bound, h.room, h.counted, fun hp hcanceled _ => ?_⟩
    have hleft := h.remaining hp hcanceled (by rw [hstream]; exact nofun)
    rwa [hstream] at hleft
  | release hc hs => exact ⟨h.bound, h.room, h.counted, fun _ _ hr => absurd rfl hr⟩
  | destroy hn hj hd =>
    refine ⟨h.bound, h.room, fun _ hcanceled => ?_, fun _ hcanceled => ?_⟩
    · cases hcanceled
    · cases hcanceled
  | finalize hp hn =>
    exact ⟨h.bound, h.room, fun hp => hp.elim, fun hp => hp.elim⟩
  | sinkNotify hp => exact h.moved (by rw [hp]; exact id) _ _
  | finalizeNotify hp => exact h.moved (by exact False.elim) _ _
  | finalizeJoined hp hj => exact h.moved (by exact False.elim) _ _
  | destroyNotifyProducer hd => exact h.moved (Producer.sinking_notify _).mp _ _
  | getNextNotify hc => exact h.moved (Producer.sinking_notify _).mp _ _
  | releaseNotify hc => exact h.moved (Producer.sinking_notify _).mp _ _
  | wakeProducer => exact h.moved (Producer.sinking_notify _).mp _ _
  | destroyNotifyConsumer hd => exact h.moved id _ _
  | destroyJoined hd hj => exact h.moved id _ _
  | wakeConsumer => exact h.moved id _ _
  | exit status rowsAffected hc hs => exact ⟨h.bound, h.room, h.counted, h.remaining⟩

end Bounded

theorem bounded {settings : InsertSettings} (hmax : 1 ≤ settings.maxChunks)
    (hmaterialize : settings.materializeInput = false) {c : Configuration D}
    (h : ((insertSystem D settings).restrict RespectsFull).Reachable c) : Bounded settings c :=
  h.invariant (fun _ hc => hc ▸ .initial hmax) (fun _ _ _ hr hc hs =>
    .step hmax hmaterialize (lifecycle hr.of_restrict) (delivering hr.of_restrict) hc hs.1 hs.2)

/-- **When the buffer stays within its limit.**  In every run in which no `Sink` gets past its wait
while the buffer is full, no more chunks have been appended since the last reset than the setting
allows. -/
theorem within_limit (D : ColumnDataCollection Row) (settings : InsertSettings)
    (hmax : 1 ≤ settings.maxChunks) (hmaterialize : settings.materializeInput = false)
    {c : Configuration D} (h : ((insertSystem D settings).restrict RespectsFull).Reachable c) :
    (c.appended : Int) ≤ settings.maxChunks :=
  (bounded hmax hmaterialize h).bound

/-- **A `Sink` that gets past its wait on a full buffer** appends its chunk there, so that a
buffer that is at its limit exceeds it. -/
theorem appended_past_wait {settings : InsertSettings} {c d : Configuration D}
    {a : InsertAction Row} (hs : Step settings c a d) (h : ¬ RespectsFull c a) :
    c.state.full = true ∧ d.appended = c.appended + 1 := by
  cases hs with
  | sink chunk exhaustedMemory hp hd =>
    simp only [RespectsFull, Classical.not_imp] at h
    obtain ⟨hfull, hdone, hcanceled⟩ := h
    refine ⟨hfull, ?_⟩
    rw [Configuration.testSink, Configuration.enterSink_eq]
    simp [hdone, hcanceled]
  | sinkResume exhaustedMemory hp =>
    simp only [RespectsFull, Classical.not_imp] at h
    obtain ⟨hfull, hdone, hcanceled⟩ := h
    refine ⟨hfull, ?_⟩
    rw [Configuration.testSink]
    simp [hdone, hcanceled]
  | _ => exact absurd trivial h

/-- A buffer for two chunks that has been handed over once holds two, and another `Sink` waits. -/
theorem two_chunks_within_limit :
    ∃ c, ((insertSystem (.dense Nat) ⟨false, 2⟩).restrict RespectsFull).Reachable c ∧
      c.producer.pending = [3] ∧ c.appended = 2 ∧ (c.appended : Int) ≤ 2 := by
  have start : ((insertSystem (.dense Nat) ⟨false, 2⟩).restrict RespectsFull).Reachable
    (.initial _) := .initial rfl
  have sunk := start.step_restrict (.sink ⟨[0], by decide⟩ false rfl rfl) fun hfull => by cases hfull
  have bound := (sunk.step_restrict (.sinkNotify rfl) trivial).step_restrict (.createStream rfl)
    trivial
  have waiting := bound.step_restrict (.sink ⟨[1], by decide⟩ false rfl rfl)
    fun _ hdone => by cases hdone
  have received := ((waiting.step_restrict (.getNext rfl rfl) trivial).step_restrict
    (.getNextNotify rfl) trivial).step_restrict (.getNextReturn rfl) trivial
  have reset := ((received.step_restrict (.getNext rfl rfl) trivial).step_restrict
    (.getNextNotify rfl) trivial).step_restrict (.getNextReturn rfl) trivial
  -- the second round
  have resumed := (reset.step_restrict (.sinkResume false rfl)
    fun hfull => by cases hfull).step_restrict (.sinkNotify rfl) trivial
  have full := (resumed.step_restrict (.sink ⟨[2], by decide⟩ false rfl rfl)
    fun hfull => by cases hfull).step_restrict (.sinkNotify rfl) trivial
  have another := full.step_restrict (.sink ⟨[3], by decide⟩ false rfl rfl)
    fun _ hdone => by cases hdone
  exact ⟨_, another, rfl, rfl, within_limit _ ⟨false, 2⟩ (by decide) rfl another⟩

/-- After the insert thread has failed, a second chunk goes into a buffer for one. -/
theorem failed_insert_overfills :
    ∃ c, (insertSystem (.dense Nat) ⟨false, 1⟩).Reachable c ∧ c.consumer = .exited ∧
      ¬ (c.appended : Int) ≤ 1 := by
  have start : (insertSystem (.dense Nat) ⟨false, 1⟩).Reachable (.initial _) := .initial rfl
  have first := start.step (.sink ⟨[0], by decide⟩ false rfl rfl)
  have bound := (first.step (.sinkNotify rfl)).step (.createStream rfl)
  have released := (bound.step (.release rfl rfl)).step (.releaseNotify rfl)
  have failed := released.step (.exit (some "table not found") 0 rfl rfl)
  have second := failed.step (.sink ⟨[1], by decide⟩ false rfl rfl)
  exact ⟨_, second, rfl, by decide⟩

end AdbcClient
