import AdbcClient.InsertLifecycle

/-!
# The insert pipeline delivers every row

A row passed to `Sink` is, in this order, received by the driver, in flight in
`get_next`, in the buffer ahead of the scan state, or held by a `Sink` that waits:
`flow` of the invariant `Delivering`.  Handing the buffer over keeps it, because rows
are appended only while the scan state is at the beginning of the buffer (`fresh`): a
scan state that has moved belongs to a full buffer, and one that is exhausted is
replaced when the buffer is reset.  And `get_next` ends the stream only after
`Finalize`, with nothing left in the buffer (`ending`).
-/
namespace AdbcClient
open Runs

variable {Row : Type} {D : ColumnDataCollection Row}

/-- The rows `get_next` is about to return. -/
def Consumer.inFlight : Consumer Row → List Row
  | getNextNotify out => out.getD []
  | getNextReturn out => out.getD []
  | _ => []

/-- About to return the end of the stream. -/
def Consumer.Ending : Consumer Row → Prop
  | getNextNotify out => out = none
  | getNextReturn out => out = none
  | _ => False

/-- The rows of the chunk that a `Sink` holds while it waits. -/
def Producer.pending : Producer Row → List Row
  | sinkWaiting chunk _ _ => chunk.rows
  | _ => []

/-- The rows of the buffer that are still to be scanned. -/
def buffered (stream : BoundStream D) (store : D.Store) : List Row :=
  match stream with
  | .notCreated => D.rows store
  | .bound scanState => D.rest store scanState
  | .released => []

@[simp] theorem Consumer.inFlight_notify (c : Consumer Row) : c.notify.inFlight = c.inFlight := by
  cases c <;> rfl

@[simp] theorem Consumer.ending_notify (c : Consumer Row) : c.notify.Ending ↔ c.Ending := by
  cases c <;> exact Iff.rfl

@[simp] theorem Producer.pending_notify (p : Producer Row) : p.notify.pending = p.pending := by
  cases p <;> rfl

theorem Producer.pending_of_not_sinking {p : Producer Row} (h : ¬ p.Sinking) : p.pending = [] := by
  cases p <;> first | rfl | exact absurd trivial h

/-- **Where the rows are**, with `pending` those held by `Sink`. -/
structure DeliveringWith (pending : List Row) (c : Configuration D) : Prop where
  /-- No row is lost, duplicated or reordered. -/
  flow : c.state.canceled = false → c.stream ≠ .released →
    chunkRows c.sunk =
      c.received.flatten ++ c.consumer.inFlight ++ buffered c.stream c.state.collection ++ pending
  /-- Rows are appended in front of a scan only. -/
  fresh : c.state.full = false → c.state.done = false →
    ∀ scanState, c.stream = .bound scanState → scanState = D.initializeScan
  /-- The stream ends after `Finalize`, with an empty buffer. -/
  ending : c.consumer.Ending → c.state.canceled = false →
    c.finalized = true ∧ buffered c.stream c.state.collection = []
  /-- `insert_count` counts the rows that were appended to the buffer. -/
  counted : c.state.canceled = false →
    c.state.insertCount + pending.length = (chunkRows c.sunk).length
  /-- What the driver has when it has seen the end of the stream. -/
  complete : c.endOfStream = true → c.finalized = true ∧
    c.received.flatten = chunkRows c.sunk ∧ c.state.insertCount = (chunkRows c.sunk).length

/-- Where the rows are between critical sections. -/
def Delivering (c : Configuration D) : Prop := DeliveringWith c.producer.pending c

namespace DeliveringWith

theorem initial : Delivering (.initial D) where
  flow _ _ := by
    simp [Configuration.initial, AdbcInsertGlobalState.new, Consumer.inFlight, buffered,
      D.rows_empty, Producer.pending]
  fresh _ _ scanState hs := by cases hs
  ending he := he.elim
  counted _ := rfl
  complete he := by cases he

theorem enterSink {c : Configuration D} (hl : Lifecycle c) (h : DeliveringWith [] c)
    (hp : c.producer.Sinking) (chunk : DataChunk Row) :
    DeliveringWith chunk.rows (c.enterSink chunk) := by
  have hfinalized : c.finalized = false := hl.sinking.mp hp
  -- launching the insert thread puts nothing in flight
  have hconsumer : (if c.state.firstInsert then .starting else c.consumer).inFlight =
        c.consumer.inFlight ∧
      ((if c.state.firstInsert then .starting else c.consumer).Ending → c.consumer.Ending) := by
    cases hfirst : c.state.firstInsert with
    | false => exact ⟨rfl, id⟩
    | true =>
      rw [hl.launched.mp hfirst]
      exact ⟨rfl, id⟩
  rw [Configuration.enterSink_eq]
  refine ⟨fun hc hs => ?_, h.fresh, fun he => h.ending (hconsumer.2 he), fun hc => ?_,
    fun he => ?_⟩
  · have hflow := h.flow hc hs
    simp only [chunkRows_append, hflow, hconsumer.1, List.append_nil]
  · have hcount := h.counted hc
    simp only [chunkRows_append, List.length_append, List.length_nil] at hcount ⊢
    omega
  · rw [(h.complete he).1] at hfinalized
    cases hfinalized

theorem testSink {settings : InsertSettings} {chunk : DataChunk Row}
    {firstChunk exhaustedMemory : Bool} {c : Configuration D} (hl : Lifecycle c)
    (h : DeliveringWith chunk.rows c) (hp : c.producer.Sinking) :
    Delivering (c.testSink settings chunk firstChunk exhaustedMemory) := by
  have hfinalized : c.finalized = false := hl.sinking.mp hp
  have hnotfinal : c.finalized ≠ true := by simp [hfinalized]
  rcases c.testSink_cases settings chunk firstChunk exhaustedMemory with
    ⟨_, _, he⟩ | ⟨_, hcanceled, he⟩ | ⟨hpred, hcanceled, he⟩
  · rw [he]
    exact ⟨h.flow, h.fresh, h.ending, h.counted, h.complete⟩
  · -- the chunk is dropped
    have hnot : c.state.canceled ≠ false := by simp [hcanceled]
    rw [he]
    exact ⟨fun hc => absurd hc hnot, h.fresh, h.ending, fun hc => absurd hc hnot,
      fun hc => absurd (h.complete hc).1 hnotfinal⟩
  · obtain ⟨hdone', hcanceled', _, hcollection, hcount, _, hfull'⟩ :=
      c.state.insertChunk_flags settings firstChunk exhaustedMemory chunk
    rw [he]
    refine ⟨fun _ hs => ?_, fun hf hd => h.fresh ?_ (hdone'.symm.trans hd),
      fun hend _ => absurd (h.ending hend hcanceled).1 hnotfinal, fun _ => ?_,
      fun hc => absurd (h.complete hc).1 hnotfinal⟩
    · -- nobody has set `done`, so the buffer is not full and the scan is at its beginning
      have hs' : c.stream ≠ .released := hs
      have hdone := hl.done_eq_false hp hcanceled hs'
      have hfull : c.state.full = false := hpred.resolve_right (by simp [hdone])
      have hbuffer : buffered c.stream (D.append c.state.collection chunk) =
          buffered c.stream c.state.collection ++ chunk.rows := by
        cases hstream : c.stream with
        | notCreated => exact D.rows_append _ _
        | released => exact absurd hstream hs'
        | bound scanState =>
          rw [h.fresh hfull hdone scanState hstream]
          simp only [buffered, D.rest_initializeScan, D.rows_append]
      have hflow := h.flow hcanceled hs'
      simp only [Producer.pending, hcollection, hbuffer, List.append_nil, hflow, List.append_assoc]
    · cases hf' : c.state.full with
      | false => rfl
      | true => exact absurd (hfull' hf') (by rw [hf]; exact Bool.false_ne_true)
    · have hc := h.counted hcanceled
      simp only [Producer.pending, hcount, List.length_nil]
      omega

theorem testGetNext {pending : List Row} {scanState : D.ScanState} {c : Configuration D}
    (hl : Lifecycle c) (h : DeliveringWith pending c) (hs : c.stream = .bound scanState)
    (hc : c.consumer.inFlight = []) : DeliveringWith pending (c.testGetNext scanState) := by
  have hbuffered : buffered c.stream c.state.collection = D.rest c.state.collection scanState := by
    rw [hs]
    rfl
  have hflow : c.state.canceled = false → chunkRows c.sunk =
      c.received.flatten ++ D.rest c.state.collection scanState ++ pending := by
    intro hcanceled
    rw [h.flow hcanceled (by rw [hs]; exact nofun), hc, hbuffered, List.append_nil]
  -- while the stream is bound, `done` is set by `Finalize`
  have hfinalized : c.state.done = true → c.state.canceled = false → c.finalized = true := by
    intro hdone hcanceled
    rcases hl.done_iff.mp hdone with hf | hx | hr
    · exact hf
    · simp [hcanceled] at hx
    · rw [hs] at hr
      cases hr
  rcases c.testGetNext_cases scanState with
    ⟨_, _, he⟩ | ⟨chunk, next, hpred, hscan, he⟩ | ⟨next, hfull, hscan, he⟩ |
      ⟨next, hfull, hdone, hscan, he⟩
  · rw [he]
    refine ⟨fun hcanceled _ => ?_, h.fresh, fun hend => hend.elim, h.counted, h.complete⟩
    simp only [hflow hcanceled, Consumer.inFlight, hbuffered, List.append_nil]
  · rw [he]
    refine ⟨fun hcanceled _ => ?_, fun hf hd => ?_, fun hend => ?_, h.counted, h.complete⟩
    · simp only [hflow hcanceled, D.rest_scan_some hscan, Consumer.inFlight, Option.getD_some,
        buffered, List.append_assoc]
    · rcases hpred with hpred | hpred
      · exact absurd (hpred.symm.trans hf) (by decide)
      · exact absurd (hpred.symm.trans hd) (by decide)
    · cases hend
  · have hempty := D.rest_scan_none hscan
    have hnew : D.rest D.empty D.initializeScan = [] := by
      rw [D.rest_initializeScan, D.rows_empty]
    rw [he]
    refine ⟨fun hcanceled _ => ?_, fun _ _ p hp => ?_, fun hend hcanceled => ⟨?_, hnew⟩, h.counted,
      h.complete⟩
    · rw [hflow hcanceled, hempty]
      cases c.state.done <;> simp [Consumer.inFlight, buffered, hnew]
    · exact (BoundStream.bound.inj hp).symm
    · refine hfinalized ?_ hcanceled
      cases hdone : c.state.done with
      | true => rfl
      | false =>
        simp only [hdone] at hend
        cases hend
  · have hempty := D.rest_scan_none hscan
    have hnext := D.rest_exhausted hscan c.state.collection
    rw [he]
    refine ⟨fun hcanceled _ => ?_, fun _ hd => ?_, fun _ hcanceled => ⟨?_, hnext⟩, h.counted,
      h.complete⟩
    · rw [hflow hcanceled, hempty]
      simp [Consumer.inFlight, buffered, hnext]
    · exact absurd (hdone.symm.trans hd) (by decide)
    · exact hfinalized hdone hcanceled

theorem returnArray {out : Option (List Row)} {c : Configuration D} (hl : Lifecycle c)
    (h : Delivering c) (hc : c.consumer = .getNextReturn out) : Delivering (c.returnArray out) := by
  have hreleased := hl.not_released_of_return hc
  unfold Configuration.returnArray
  split
  · rename_i hcanceled
    have hnot : c.state.canceled ≠ false := by simp [hcanceled]
    exact ⟨fun hx => absurd hx hnot, h.fresh, fun he => he.elim, fun hx => absurd hx hnot,
      h.complete⟩
  · rename_i hcanceled
    have hcanceled : c.state.canceled = false := by simpa using hcanceled
    have hflow := h.flow hcanceled hreleased
    rw [hc] at hflow
    split
    · rename_i rows
      refine ⟨fun _ _ => ?_, h.fresh, fun he => he.elim, h.counted, fun he => ?_⟩
      · simp only [hflow, Consumer.inFlight, Option.getD_some, List.flatten_append,
          List.flatten_singleton, List.append_nil]
      · -- a batch after the end of the stream has no rows
        obtain ⟨hfinalized, hall, hcount⟩ := h.complete he
        have hlen := congrArg List.length hflow
        simp only [← hall, Consumer.inFlight, Option.getD_some, List.length_append] at hlen
        have hrows : rows = [] := List.length_eq_zero_iff.mp (by omega)
        refine ⟨hfinalized, ?_, hcount⟩
        simp only [hrows, List.flatten_append, List.flatten_singleton, List.append_nil, hall]
    · refine ⟨fun _ _ => ?_, h.fresh, fun he => he.elim, h.counted, fun _ => ?_⟩
      · simpa only [Consumer.inFlight, Option.getD_none] using hflow
      · obtain ⟨hfinalized, hempty⟩ := h.ending (by rw [hc]; rfl) hcanceled
        have hpending : c.producer.pending = [] :=
          Producer.pending_of_not_sinking (fun hs => by simp [hl.sinking.mp hs] at hfinalized)
        have hcount := h.counted hcanceled
        rw [hpending] at hflow hcount
        refine ⟨hfinalized, ?_, by simpa using hcount⟩
        simp [hflow, Consumer.inFlight, hempty]

/-- A thread moves on and takes no row along. -/
theorem moved {c : Configuration D} (h : Delivering c) {producer : Producer Row}
    (hp : producer.pending = c.producer.pending) {consumer : Consumer Row}
    (hc : consumer.inFlight = c.consumer.inFlight) (he : consumer.Ending → c.consumer.Ending)
    (destroyer : Destroyer) :
    Delivering { c with producer := producer, consumer := consumer, destroyer := destroyer } := by
  have hwith : DeliveringWith producer.pending c := by rw [hp]; exact h
  refine ⟨fun hcanceled hs => ?_, hwith.fresh, fun hx => hwith.ending (he hx), hwith.counted,
    hwith.complete⟩
  rw [hc]
  exact hwith.flow hcanceled hs

/-- **Every step leaves the rows where they belong.** -/
theorem step {settings : InsertSettings} {c d : Configuration D} {a : InsertAction Row}
    (hl : Lifecycle c) (h : Delivering c) (hs : Step settings c a d) : Delivering d := by
  have hwith : DeliveringWith c.producer.pending c := h
  cases hs with
  | sink chunk exhaustedMemory hp hd =>
    have hsinking : c.producer.Sinking := by rw [hp]; trivial
    rw [hp] at hwith
    apply testSink (hl.enterSink chunk) (hwith.enterSink hl hsinking chunk)
    rw [Configuration.enterSink_eq]
    exact hsinking
  | sinkResume exhaustedMemory hp =>
    rw [hp] at hwith
    exact testSink hl hwith (by rw [hp]; trivial)
  | getNext hc hs =>
    rw [Delivering, Configuration.testGetNext_producer]
    exact testGetNext hl h hs (by rw [hc]; rfl)
  | getNextResume hc hs =>
    rw [Delivering, Configuration.testGetNext_producer]
    exact testGetNext hl h hs (by rw [hc]; rfl)
  | getNextReturn hc => exact returnArray hl h hc
  | sinkNotify hp =>
    exact moved h (by rw [hp]; rfl) (Consumer.inFlight_notify _) (Consumer.ending_notify _).mp _
  | finalize hp hd =>
    rw [hp] at hwith
    refine ⟨hwith.flow, fun _ hdone => ?_, fun he hx => ⟨rfl, (hwith.ending he hx).2⟩,
      hwith.counted, fun he => ⟨rfl, (hwith.complete he).2⟩⟩
    cases hdone
  | finalizeNotify hp =>
    exact moved h (by rw [hp]; rfl) (Consumer.inFlight_notify _) (Consumer.ending_notify _).mp _
  | finalizeJoined hp hj => exact moved h (by rw [hp]; rfl) rfl id _
  | destroy hn hj hd =>
    refine ⟨fun hx => ?_, fun _ hdone => ?_, fun _ hx => ?_, fun hx => ?_, hwith.complete⟩
    · cases hx
    · cases hdone
    · cases hx
    · cases hx
  | destroyNotifyConsumer hd =>
    exact moved h rfl (Consumer.inFlight_notify _) (Consumer.ending_notify _).mp _
  | destroyNotifyProducer hd => exact moved h (Producer.pending_notify _) rfl id _
  | destroyJoined hd hj => exact moved h rfl rfl id _
  | createStream hc =>
    have hstream := hl.notCreated_of_starting hc
    refine ⟨fun hx _ => ?_, fun _ _ p hp => ?_, fun he => he.elim, hwith.counted, hwith.complete⟩
    · have hflow := hwith.flow hx (by rw [hstream]; exact nofun)
      rw [hstream, hc] at hflow
      simpa only [buffered, D.rest_initializeScan, Consumer.inFlight] using hflow
    · exact (BoundStream.bound.inj hp).symm
  | getNextNotify hc =>
    exact moved h (Producer.pending_notify _) (by rw [hc]; rfl) (by rw [hc]; exact id) _
  | release hc hs =>
    refine ⟨fun _ hx => absurd rfl hx, fun _ hdone => ?_, fun he => he.elim, hwith.counted,
      hwith.complete⟩
    cases hdone
  | releaseNotify hc =>
    refine moved h (Producer.pending_notify _) (by rw [hc]; rfl) ?_ _
    exact fun he => he.elim
  | exit status rowsAffected hc hs =>
    refine ⟨fun _ hx => absurd hs hx, hwith.fresh, fun he => he.elim, hwith.counted, hwith.complete⟩
  | wakeProducer => exact moved h (Producer.pending_notify _) rfl id _
  | wakeConsumer => exact moved h rfl (Consumer.inFlight_notify _) (Consumer.ending_notify _).mp _

end DeliveringWith

theorem delivering {settings : InsertSettings} {c : Configuration D}
    (h : (insertSystem D settings).Reachable c) : Delivering c :=
  h.invariant (fun _ hc => hc ▸ DeliveringWith.initial)
    (fun _ _ _ hr hc hs => DeliveringWith.step (lifecycle hr) hc hs)

/-- **The driver gets every row.**  When it has seen the end of the stream, `Finalize`
has been called, the batches it has received are the rows of the chunks passed to
`Sink`, in order, and `GetDataInternal` reports how many they are. -/
theorem delivered (D : ColumnDataCollection Row) (settings : InsertSettings)
    {c : Configuration D} (h : (insertSystem D settings).Reachable c)
    (hend : c.endOfStream = true) :
    c.finalized = true ∧ c.received.flatten = chunkRows c.sunk ∧
      c.state.getDataInternal = c.received.flatten.length := by
  obtain ⟨hfinalized, hall, hcount⟩ := (delivering h).complete hend
  refine ⟨hfinalized, hall, ?_⟩
  rw [hall]
  exact hcount

/-- Three chunks.  The second `Sink` waits until the first chunk has been sent and the buffer reset,
and the last two fill the buffer again. -/
theorem three_chunks_delivered :
    ∃ c, (insertSystem (.dense Nat) ⟨false, 2⟩).Reachable c ∧ c.received = [[0], [], [1, 2]] ∧
      c.finalized = true ∧ c.received.flatten = chunkRows c.sunk ∧
      c.state.getDataInternal = c.received.flatten.length := by
  have start : (insertSystem (.dense Nat) ⟨false, 2⟩).Reachable (.initial _) := .initial rfl
  have sunk := (start.step (.sink ⟨[0], by decide⟩ false rfl rfl)).step (.sinkNotify rfl)
  have bound := sunk.step (.createStream rfl)
  have waiting := bound.step (.sink ⟨[1], by decide⟩ false rfl rfl)
  have received := ((waiting.step (.getNext rfl rfl)).step (.getNextNotify rfl)).step
    (.getNextReturn rfl)
  have reset := ((received.step (.getNext rfl rfl)).step (.getNextNotify rfl)).step
    (.getNextReturn rfl)
  -- the second round
  have resumed := (reset.step (.sinkResume false rfl)).step (.sinkNotify rfl)
  have full := (resumed.step (.sink ⟨[2], by decide⟩ false rfl rfl)).step (.sinkNotify rfl)
  have finalized := (full.step (.finalize rfl rfl)).step (.finalizeNotify rfl)
  have both := ((finalized.step (.getNext rfl rfl)).step (.getNextNotify rfl)).step
    (.getNextReturn rfl)
  have seen := ((both.step (.getNext rfl rfl)).step (.getNextNotify rfl)).step (.getNextReturn rfl)
  exact ⟨_, seen, rfl, delivered _ _ seen rfl⟩

end AdbcClient
