import AdbcClient.ColumnData
import AdbcClient.Runs
import Mathlib.Algebra.Group.Int.Defs

/-!
# The insert pipeline

An `AdbcInsert` moves rows from DuckDB to the driver through a buffer
(`adbc_insert.cpp`).  DuckDB's thread calls `Sink` for each chunk, then `Finalize`;
the insert thread runs `AsyncInsert`, which binds an Arrow stream over the buffer and
lets the driver pull batches through `get_next`.  The two share the flags of
`AdbcInsertGlobalState` under `insert_mutex` and wait for each other on two condition
variables; the destructor of the state is a third party.

Every lock is held for one critical section, so a step (`Step`) is a critical
section, or what a thread does between two of them: a notification, the read of
`canceled` at the end of `get_next`, a join.  A thread inside `wait` is asleep until
it is notified or wakes up by itself, and then tests its predicate again.

The driver may call `get_next` any number of times, fail at any call and release the
stream early; it calls from one thread at a time, and the stream is released before
`AsyncInsert` returns.  DuckDB makes one call of the operator at a time, none of them
after `Finalize` or once the state is being destroyed.
-/
namespace AdbcClient
open Runs

variable {Row : Type}

/-! ## The shared state -/

/-- The settings an insert is started with. -/
structure InsertSettings where
  materializeInput : Bool
  maxChunks : Int
  deriving DecidableEq, Repr

/-- `AdbcInsertGlobalState`.  `status` is the message of the ADBC call that failed. -/
structure AdbcInsertGlobalState (D : ColumnDataCollection Row) where
  done : Bool
  canceled : Bool
  full : Bool
  firstInsert : Bool
  activeChunks : Int
  status : Option String
  insertCount : Nat
  rowsAffected : Int
  collection : D.Store

namespace AdbcInsertGlobalState
variable {D : ColumnDataCollection Row}

/-- The shared state that an insert starts with, before the first chunk is passed to `Sink`. -/
def new (D : ColumnDataCollection Row) : AdbcInsertGlobalState D where
  done := false
  canceled := false
  full := false
  firstInsert := true
  activeChunks := 0
  status := none
  insertCount := 0
  rowsAffected := 0
  collection := D.empty

/-- The end of `Sink`: insert the chunk, and consider blocking. -/
def insertChunk (settings : InsertSettings) (firstChunk exhaustedMemory : Bool)
    (chunk : DataChunk Row) (g : AdbcInsertGlobalState D) : AdbcInsertGlobalState D :=
  let g := { g with
    collection := D.append g.collection chunk
    insertCount := g.insertCount + chunk.rows.length
    activeChunks := g.activeChunks + 1 }
  if !settings.materializeInput then
    let hitChunkLimit := decide (settings.maxChunks ≤ g.activeChunks)
    if firstChunk || exhaustedMemory || hitChunkLimit then { g with full := true } else g
  else g

/-- The end of the critical section of `get_next`: the array, which is released at the
end of the stream. -/
def readChunk (g : AdbcInsertGlobalState D) (scanState : D.ScanState) :
    Option (List Row) × AdbcInsertGlobalState D × D.ScanState :=
  match D.scan g.collection scanState with
  | (some chunk, scanState) =>
    (some chunk.rows, { g with activeChunks := g.activeChunks - 1 }, scanState)
  | (none, scanState) =>
    let out := if g.done then none else some []
    if g.full then (out, { g with full := false, collection := D.empty }, D.initializeScan)
    else (out, g, scanState)

/-- Whether `get_next` resets the buffer here: it finds the end of a full one. -/
def resets (g : AdbcInsertGlobalState D) (scanState : D.ScanState) : Bool :=
  (D.scan g.collection scanState).1.isNone && g.full

/-- The checks at the end of `Finalize`. -/
def finalizeResult (g : AdbcInsertGlobalState D) : Except String Unit :=
  match g.status with
  | some message => .error message
  | none =>
    if g.rowsAffected ≠ -1 ∧ g.rowsAffected % 2 ^ 64 ≠ g.insertCount then
      .error ("Row count mismatch: expected " ++ toString g.insertCount ++ ", got " ++
        toString g.rowsAffected)
    else .ok ()

/-- `GetDataInternal`. -/
def getDataInternal (g : AdbcInsertGlobalState D) : Nat := g.insertCount

end AdbcInsertGlobalState

/-! ## The threads -/

/-- A thread inside `wait` is asleep, or has been woken up and is to test its predicate again. -/
inductive Wait where
  | asleep
  | awake
  deriving DecidableEq, Repr

/-- Where DuckDB's thread is: between calls, in one of the parts of `Sink` or of
`Finalize`, or past it. -/
inductive Producer (Row : Type) where
  | ready
  | sinkWaiting (chunk : DataChunk Row) (firstChunk : Bool) (wait : Wait)
  | sinkNotify
  | finalizeNotify
  | finalizeJoin
  | finalized (result : Except String Unit)

/-- Where the destructor of the global state is: not called yet, in front of one of its
notifications or of the join, or past it. -/
inductive Destroyer where
  | notStarted
  | notifyConsumer
  | notifyProducer
  | join
  | destroyed
  deriving DecidableEq, Repr

/-- Where the insert thread is: before `CreateArrowStreamFromCollection`, in
`AsyncInsert` or the driver, in one of the parts of `get_next` or of `release`, or
past its end. -/
inductive Consumer (Row : Type) where
  | notStarted
  | starting
  | running
  | getNextWaiting (wait : Wait)
  | getNextNotify (out : Option (List Row))
  | getNextReturn (out : Option (List Row))
  | releaseNotify
  | exited

/-- The stream over the buffer, with the `scan_state` of its private data. -/
inductive BoundStream (D : ColumnDataCollection Row) where
  | notCreated
  | bound (scanState : D.ScanState)
  | released

/-- `producer_cv.notify_one()`. -/
def Producer.notify : Producer Row → Producer Row
  | sinkWaiting chunk firstChunk _ => sinkWaiting chunk firstChunk .awake
  | p => p

/-- `consumer_cv.notify_one()`. -/
def Consumer.notify : Consumer Row → Consumer Row
  | getNextWaiting _ => getNextWaiting .awake
  | c => c

/-- The state, the threads, and what the run has seen: the chunks passed to `Sink`,
the batches the driver has received, whether it has seen the end of the stream, whether
`Finalize` has set `done`, and the chunks appended since the buffer was last reset. -/
structure Configuration (D : ColumnDataCollection Row) where
  state : AdbcInsertGlobalState D
  producer : Producer Row
  destroyer : Destroyer
  consumer : Consumer Row
  stream : BoundStream D
  sunk : List (DataChunk Row)
  received : List (List Row)
  endOfStream : Bool
  finalized : Bool
  appended : Nat

namespace Configuration
variable {D : ColumnDataCollection Row}

/-- The configuration before the first call, in which no thread is inside the operator. -/
def initial (D : ColumnDataCollection Row) : Configuration D where
  state := .new D
  producer := .ready
  destroyer := .notStarted
  consumer := .notStarted
  stream := .notCreated
  sunk := []
  received := []
  endOfStream := false
  finalized := false
  appended := 0

/-- `Sink` enters its critical section, and launches the insert thread on the first
insert. -/
def enterSink (c : Configuration D) (chunk : DataChunk Row) : Configuration D :=
  let c := { c with sunk := c.sunk ++ [chunk] }
  if c.state.firstInsert then
    { c with state := { c.state with firstInsert := false }, consumer := .starting }
  else c

/-- `Sink` tests its predicate and, if it holds, goes on to the end of the critical
section. -/
def testSink (settings : InsertSettings) (chunk : DataChunk Row)
    (firstChunk exhaustedMemory : Bool) (c : Configuration D) : Configuration D :=
  if !c.state.full || c.state.done then
    if c.state.canceled then { c with producer := .ready }
    else
      { c with
        state := c.state.insertChunk settings firstChunk exhaustedMemory chunk
        producer := .sinkNotify
        appended := c.appended + 1 }
  else { c with producer := .sinkWaiting chunk firstChunk .asleep }

/-- `get_next` tests its predicate and, if it holds, goes on to the end of the critical
section. -/
def testGetNext (scanState : D.ScanState) (c : Configuration D) : Configuration D :=
  if c.state.full || c.state.done then
    let (out, state, scanState') := c.state.readChunk scanState
    { c with
      state := state
      consumer := .getNextNotify out
      stream := .bound scanState'
      appended := if c.state.resets scanState then 0 else c.appended }
  else { c with consumer := .getNextWaiting .asleep }

/-- `get_next` returns: the driver takes the array unless the code is `ECANCELED`. -/
def returnArray (out : Option (List Row)) (c : Configuration D) : Configuration D :=
  if c.state.canceled then { c with consumer := .running }
  else
    match out with
    | some rows => { c with consumer := .running, received := c.received ++ [rows] }
    | none => { c with consumer := .running, endOfStream := true }

/-- `joinable()` is false because no thread was started, or `join()` returns because it has ended.
-/
def Joined (c : Configuration D) : Prop := c.consumer = .notStarted ∨ c.consumer = .exited

end Configuration

open AdbcClient.Configuration

/-- What the threads can do: the critical sections, the notifications between them, and waking up
without one. -/
inductive InsertAction (Row : Type) where
  | sink (chunk : DataChunk Row) (exhaustedMemory : Bool)
  | sinkResume (exhaustedMemory : Bool)
  | sinkNotify
  | finalize
  | finalizeNotify
  | finalizeJoined
  | destroy
  | destroyNotifyConsumer
  | destroyNotifyProducer
  | destroyJoined
  | createStream
  | getNext
  | getNextResume
  | getNextNotify
  | getNextReturn
  | release
  | releaseNotify
  | exit (status : Option String) (rowsAffected : Int)
  | wakeProducer
  | wakeConsumer

/-- One step of one thread, by the place where the thread is and the state that the step finds. -/
inductive Step {D : ColumnDataCollection Row} (settings : InsertSettings) :
    Configuration D → InsertAction Row → Configuration D → Prop
  | sink {c : Configuration D} (chunk : DataChunk Row) (exhaustedMemory : Bool)
      (hp : c.producer = .ready) (hd : c.destroyer = .notStarted) :
      Step settings c (.sink chunk exhaustedMemory)
        ((c.enterSink chunk).testSink settings chunk c.state.firstInsert exhaustedMemory)
  | sinkResume {c : Configuration D} {chunk : DataChunk Row} {firstChunk : Bool}
      (exhaustedMemory : Bool) (hp : c.producer = .sinkWaiting chunk firstChunk .awake) :
      Step settings c (.sinkResume exhaustedMemory)
        (c.testSink settings chunk firstChunk exhaustedMemory)
  | sinkNotify {c : Configuration D} (hp : c.producer = .sinkNotify) :
      Step settings c .sinkNotify { c with producer := .ready, consumer := c.consumer.notify }
  | finalize {c : Configuration D} (hp : c.producer = .ready) (hd : c.destroyer = .notStarted) :
      Step settings c .finalize
        { c with
          state := { c.state with done := true }
          producer := .finalizeNotify
          finalized := true }
  | finalizeNotify {c : Configuration D} (hp : c.producer = .finalizeNotify) :
      Step settings c .finalizeNotify
        { c with producer := .finalizeJoin, consumer := c.consumer.notify }
  | finalizeJoined {c : Configuration D} (hp : c.producer = .finalizeJoin) (hj : c.Joined) :
      Step settings c .finalizeJoined { c with producer := .finalized c.state.finalizeResult }
  | destroy {c : Configuration D} (hn : c.producer ≠ .finalizeNotify)
      (hj : c.producer ≠ .finalizeJoin) (hd : c.destroyer = .notStarted) :
      Step settings c .destroy
        { c with
          state := { c.state with canceled := true, done := true }
          destroyer := .notifyConsumer }
  | destroyNotifyConsumer {c : Configuration D} (hd : c.destroyer = .notifyConsumer) :
      Step settings c .destroyNotifyConsumer
        { c with destroyer := .notifyProducer, consumer := c.consumer.notify }
  | destroyNotifyProducer {c : Configuration D} (hd : c.destroyer = .notifyProducer) :
      Step settings c .destroyNotifyProducer
        { c with destroyer := .join, producer := c.producer.notify }
  | destroyJoined {c : Configuration D} (hd : c.destroyer = .join) (hj : c.Joined) :
      Step settings c .destroyJoined { c with destroyer := .destroyed }
  | createStream {c : Configuration D} (hc : c.consumer = .starting) :
      Step settings c .createStream
        { c with consumer := .running, stream := .bound D.initializeScan }
  | getNext {c : Configuration D} {scanState : D.ScanState} (hc : c.consumer = .running)
      (hs : c.stream = .bound scanState) : Step settings c .getNext (c.testGetNext scanState)
  | getNextResume {c : Configuration D} {scanState : D.ScanState}
      (hc : c.consumer = .getNextWaiting .awake) (hs : c.stream = .bound scanState) :
      Step settings c .getNextResume (c.testGetNext scanState)
  | getNextNotify {c : Configuration D} {out : Option (List Row)}
      (hc : c.consumer = .getNextNotify out) :
      Step settings c .getNextNotify
        { c with consumer := .getNextReturn out, producer := c.producer.notify }
  | getNextReturn {c : Configuration D} {out : Option (List Row)}
      (hc : c.consumer = .getNextReturn out) :
      Step settings c .getNextReturn (c.returnArray out)
  | release {c : Configuration D} {scanState : D.ScanState} (hc : c.consumer = .running)
      (hs : c.stream = .bound scanState) :
      Step settings c .release
        { c with
          state := { c.state with done := true }
          consumer := .releaseNotify
          stream := .released }
  | releaseNotify {c : Configuration D} (hc : c.consumer = .releaseNotify) :
      Step settings c .releaseNotify { c with consumer := .running, producer := c.producer.notify }
  | exit {c : Configuration D} (status : Option String) (rowsAffected : Int)
      (hc : c.consumer = .running) (hs : c.stream = .released) :
      Step settings c (.exit status rowsAffected)
        { c with
          state := { c.state with status := status, rowsAffected := rowsAffected }
          consumer := .exited }
  | wakeProducer {c : Configuration D} :
      Step settings c .wakeProducer { c with producer := c.producer.notify }
  | wakeConsumer {c : Configuration D} :
      Step settings c .wakeConsumer { c with consumer := c.consumer.notify }

/-- The insert pipeline as a transition system, from the configuration before the first call. -/
def insertSystem (D : ColumnDataCollection Row) (settings : InsertSettings) :
    TransitionSystem (Configuration D) (InsertAction Row) where
  initial := (· = .initial D)
  step := Step settings

/-! ## What the critical sections do -/

namespace AdbcInsertGlobalState
variable {D : ColumnDataCollection Row}

/-- Inserting a chunk leaves the flags alone but for `full`, which it only sets. -/
theorem insertChunk_flags (settings : InsertSettings) (firstChunk exhaustedMemory : Bool)
    (chunk : DataChunk Row) (g : AdbcInsertGlobalState D) :
    let g' := g.insertChunk settings firstChunk exhaustedMemory chunk
    g'.done = g.done ∧ g'.canceled = g.canceled ∧ g'.firstInsert = g.firstInsert ∧
      g'.collection = D.append g.collection chunk ∧
      g'.insertCount = g.insertCount + chunk.rows.length ∧
      g'.activeChunks = g.activeChunks + 1 ∧ (g.full = true → g'.full = true) := by
  simp only [insertChunk]
  split
  · split
    · simp
    · simp
  · simp

/-- **What reading can do**: return a chunk, find the end of a full buffer and reset it,
or find the end otherwise. -/
theorem readChunk_cases (g : AdbcInsertGlobalState D) (scanState : D.ScanState) :
    (∃ chunk scanState', D.scan g.collection scanState = (some chunk, scanState') ∧
      g.resets scanState = false ∧
      g.readChunk scanState =
        (some chunk.rows, { g with activeChunks := g.activeChunks - 1 }, scanState')) ∨
    (∃ scanState', D.scan g.collection scanState = (none, scanState') ∧ g.full = true ∧
      g.resets scanState = true ∧
      g.readChunk scanState = (if g.done then none else some [],
        { g with full := false, collection := D.empty }, D.initializeScan)) ∨
    (∃ scanState', D.scan g.collection scanState = (none, scanState') ∧ g.full = false ∧
      g.resets scanState = false ∧
      g.readChunk scanState = (if g.done then none else some [], g, scanState')) := by
  cases hscan : D.scan g.collection scanState with
  | mk found scanState' =>
    cases found with
    | some chunk => exact .inl ⟨chunk, scanState', rfl, by simp [resets, hscan],
        by simp only [readChunk, hscan]⟩
    | none =>
      cases hfull : g.full with
      | true => exact .inr (.inl ⟨scanState', rfl, rfl, by simp [resets, hscan, hfull],
          by simp [readChunk, hscan, hfull]⟩)
      | false => exact .inr (.inr ⟨scanState', rfl, rfl, by simp [resets, hscan, hfull],
          by simp [readChunk, hscan, hfull]⟩)

end AdbcInsertGlobalState

namespace Configuration
variable {D : ColumnDataCollection Row}

theorem enterSink_eq (c : Configuration D) (chunk : DataChunk Row) :
    c.enterSink chunk =
      { c with
        state := { c.state with firstInsert := false }
        consumer := if c.state.firstInsert then .starting else c.consumer
        sunk := c.sunk ++ [chunk] } := by
  obtain ⟨state, _, _, _, _, _, _, _, _, _⟩ := c
  obtain ⟨_, _, _, firstInsert, _, _, _, _, _⟩ := state
  cases firstInsert <;> rfl

/-- **What testing in `Sink` can do**: go to sleep, return, or insert the chunk. -/
theorem testSink_cases (settings : InsertSettings) (chunk : DataChunk Row)
    (firstChunk exhaustedMemory : Bool) (c : Configuration D) :
    (c.state.full = true ∧ c.state.done = false ∧
      c.testSink settings chunk firstChunk exhaustedMemory =
        { c with producer := .sinkWaiting chunk firstChunk .asleep }) ∨
    ((c.state.full = false ∨ c.state.done = true) ∧ c.state.canceled = true ∧
      c.testSink settings chunk firstChunk exhaustedMemory = { c with producer := .ready }) ∨
    ((c.state.full = false ∨ c.state.done = true) ∧ c.state.canceled = false ∧
      c.testSink settings chunk firstChunk exhaustedMemory =
        { c with
          state := c.state.insertChunk settings firstChunk exhaustedMemory chunk
          producer := .sinkNotify
          appended := c.appended + 1 }) := by
  rw [testSink]
  cases hfull : c.state.full <;> cases hdone : c.state.done <;>
    cases hcanceled : c.state.canceled <;> simp

/-- **What testing in `get_next` can do**: go to sleep, return a chunk, reset the buffer,
or find the end of a buffer that is not full. -/
theorem testGetNext_cases (scanState : D.ScanState) (c : Configuration D) :
    (c.state.full = false ∧ c.state.done = false ∧
      c.testGetNext scanState = { c with consumer := .getNextWaiting .asleep }) ∨
    (∃ chunk scanState', (c.state.full = true ∨ c.state.done = true) ∧
      D.scan c.state.collection scanState = (some chunk, scanState') ∧
      c.testGetNext scanState =
        { c with
          state := { c.state with activeChunks := c.state.activeChunks - 1 }
          consumer := .getNextNotify (some chunk.rows)
          stream := .bound scanState' }) ∨
    (∃ scanState', c.state.full = true ∧
      D.scan c.state.collection scanState = (none, scanState') ∧
      c.testGetNext scanState =
        { c with
          state := { c.state with full := false, collection := D.empty }
          consumer := .getNextNotify (if c.state.done then none else some [])
          stream := .bound D.initializeScan
          appended := 0 }) ∨
    (∃ scanState', c.state.full = false ∧ c.state.done = true ∧
      D.scan c.state.collection scanState = (none, scanState') ∧
      c.testGetNext scanState =
        { c with consumer := .getNextNotify none, stream := .bound scanState' }) := by
  by_cases hpred : (c.state.full || c.state.done) = true
  · have hor : c.state.full = true ∨ c.state.done = true := by simpa using hpred
    rcases c.state.readChunk_cases scanState with
      ⟨chunk, p, hscan, hresets, he⟩ | ⟨p, hscan, hfull, hresets, he⟩ |
        ⟨p, hscan, hfull, hresets, he⟩
    · exact .inr (.inl ⟨chunk, p, hor, hscan, by simp [testGetNext, hpred, he, hresets]⟩)
    · exact .inr (.inr (.inl ⟨p, hfull, hscan, by simp [testGetNext, hpred, he, hresets]⟩))
    · have hdone : c.state.done = true := hor.resolve_left (by simp [hfull])
      exact .inr (.inr (.inr ⟨p, hfull, hdone, hscan, by
        simp [testGetNext, he, hresets, hdone]⟩))
  · have hnot : c.state.full = false ∧ c.state.done = false := by simpa using hpred
    exact .inl ⟨hnot.1, hnot.2, by simp [testGetNext, hnot]⟩

@[simp] theorem testGetNext_producer (scanState : D.ScanState) (c : Configuration D) :
    (c.testGetNext scanState).producer = c.producer := by
  rcases c.testGetNext_cases scanState with
    ⟨_, _, he⟩ | ⟨_, _, _, _, he⟩ | ⟨_, _, _, he⟩ | ⟨_, _, _, _, he⟩ <;> rw [he]

end Configuration

end AdbcClient
