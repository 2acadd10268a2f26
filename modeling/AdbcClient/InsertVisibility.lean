import AdbcClient.InsertDelivery

/-!
# What the driver sees of an unfinished insert

The destructor of the insert state and the release of the stream both set `done`, the
flag that ends the stream in `get_next`, without the input being complete.  That the
driver still does not take what it has received for the whole input rests on two things: the
destructor sets `canceled` in the same critical section, and `get_next` reads
`canceled` after that (`unfinished_not_complete`).

With `adbc_materialize_insert_rows` nothing sets `full`, so the driver waits for
`done` and receives no row while the source can still be read
(`materialized_before_sent`).
-/
namespace AdbcClient
open Runs

variable {Row : Type} {D : ColumnDataCollection Row}

/-! ## The return code of `get_next` -/

/-- `ECANCELED`. -/
def ecanceled : Int := 125

namespace Configuration

/-- The code with which `get_next` returns, by the value of `canceled` that it reads last. -/
def getNextCode (c : Configuration D) : Int := if c.state.canceled then ecanceled else 0

theorem getNextCode_eq_zero {c : Configuration D} :
    c.getNextCode = 0 ↔ c.state.canceled = false := by
  unfold getNextCode
  cases c.state.canceled <;> decide

theorem getNextCode_eq_ecanceled {c : Configuration D} :
    c.getNextCode = ecanceled ↔ c.state.canceled = true := by
  unfold getNextCode
  cases c.state.canceled <;> decide

/-- **What `get_next` returns**: nothing that the driver takes, a batch, or the end of
the stream. -/
theorem returnArray_cases (out : Option (List Row)) (c : Configuration D) :
    (c.getNextCode = ecanceled ∧ c.returnArray out = { c with consumer := .running }) ∨
    (c.getNextCode = 0 ∧ ∃ rows, out = some rows ∧
      c.returnArray out = { c with consumer := .running, received := c.received ++ [rows] }) ∨
    (c.getNextCode = 0 ∧ out = none ∧
      c.returnArray out = { c with consumer := .running, endOfStream := true }) := by
  unfold returnArray
  cases hcanceled : c.state.canceled with
  | true => exact .inl ⟨getNextCode_eq_ecanceled.mpr hcanceled, rfl⟩
  | false =>
    have hcode := getNextCode_eq_zero.mpr hcanceled
    cases out with
    | some rows => exact .inr (.inl ⟨hcode, rows, rfl, rfl⟩)
    | none => exact .inr (.inr ⟨hcode, rfl, rfl⟩)

theorem testSink_seen (settings : InsertSettings) (chunk : DataChunk Row)
    (firstChunk exhaustedMemory : Bool) (c : Configuration D) :
    let d := c.testSink settings chunk firstChunk exhaustedMemory
    d.sunk = c.sunk ∧ d.received = c.received ∧ d.endOfStream = c.endOfStream ∧
      d.finalized = c.finalized ∧ d.consumer = c.consumer ∧
      d.state.canceled = c.state.canceled := by
  obtain ⟨_, hcanceled, -⟩ :=
    c.state.insertChunk_flags settings firstChunk exhaustedMemory chunk
  rcases c.testSink_cases settings chunk firstChunk exhaustedMemory with
    ⟨_, _, he⟩ | ⟨_, _, he⟩ | ⟨_, _, he⟩
  · simp only [he, and_self]
  · simp only [he, and_self]
  · simp only [he, hcanceled, and_self]

theorem testGetNext_seen (scanState : D.ScanState) (c : Configuration D) :
    let d := c.testGetNext scanState
    d.sunk = c.sunk ∧ d.received = c.received ∧ d.endOfStream = c.endOfStream ∧
      d.finalized = c.finalized ∧ d.state.canceled = c.state.canceled ∧
      d.state.firstInsert = c.state.firstInsert := by
  rcases c.testGetNext_cases scanState with
    ⟨_, _, he⟩ | ⟨_, _, _, _, he⟩ | ⟨_, _, _, he⟩ | ⟨_, _, _, _, he⟩ <;>
  simp only [he, and_self]

end Configuration

/-- **The driver receives from `get_next` only**: a step leaves what it has received
alone, or returns a batch to it. -/
theorem Step.received_cases {settings : InsertSettings} {c d : Configuration D}
    {a : InsertAction Row} (hs : Step settings c a d) :
    (d.received = c.received ∧ c.sunk <+: d.sunk ∧
      (c.finalized = true → d.finalized = true)) ∨
    (∃ rows, c.consumer = .getNextReturn (some rows) ∧ c.state.canceled = false ∧
      d.received = c.received ++ [rows] ∧ d.sunk = c.sunk ∧ d.finalized = c.finalized) := by
  cases hs with
  | sink chunk exhaustedMemory hp hd =>
    obtain ⟨hsunk, hreceived, _, hfinalized, -⟩ :=
      (c.enterSink chunk).testSink_seen settings chunk c.state.firstInsert exhaustedMemory
    rw [c.enterSink_eq chunk] at hsunk hreceived hfinalized ⊢
    exact .inl ⟨hreceived, hsunk ▸ List.prefix_append .., fun hf => hfinalized.trans hf⟩
  | @sinkResume chunk firstChunk exhaustedMemory hp =>
    obtain ⟨hsunk, hreceived, _, hfinalized, -⟩ :=
      c.testSink_seen settings chunk firstChunk exhaustedMemory
    exact .inl ⟨hreceived, hsunk ▸ List.prefix_refl _, fun hf => hfinalized.trans hf⟩
  | @getNext scanState hc hs =>
    obtain ⟨hsunk, hreceived, _, hfinalized, -⟩ := c.testGetNext_seen scanState
    exact .inl ⟨hreceived, hsunk ▸ List.prefix_refl _, fun hf => hfinalized.trans hf⟩
  | @getNextResume scanState hc hs =>
    obtain ⟨hsunk, hreceived, _, hfinalized, -⟩ := c.testGetNext_seen scanState
    exact .inl ⟨hreceived, hsunk ▸ List.prefix_refl _, fun hf => hfinalized.trans hf⟩
  | @getNextReturn out hc =>
    rcases c.returnArray_cases out with ⟨_, he⟩ | ⟨hcode, rows, rfl, he⟩ | ⟨_, _, he⟩
    · rw [he]
      exact .inl ⟨rfl, List.prefix_refl _, id⟩
    · rw [he]
      exact .inr ⟨rows, hc, Configuration.getNextCode_eq_zero.mp hcode, rfl, rfl, rfl⟩
    · rw [he]
      exact .inl ⟨rfl, List.prefix_refl _, id⟩
  | finalize hp hd => exact .inl ⟨rfl, List.prefix_refl _, fun _ => rfl⟩
  | _ => exact .inl ⟨rfl, List.prefix_refl _, id⟩

/-! ## An insert that is not finalized -/

/-- Once the insert is canceled, `get_next` returns nothing more that the driver takes. -/
theorem Step.after_cancel {settings : InsertSettings} {c d : Configuration D}
    {a : InsertAction Row} (hs : Step settings c a d) (hcanceled : c.state.canceled = true) :
    d.state.canceled = true ∧ d.received = c.received ∧ d.endOfStream = c.endOfStream := by
  have hreceived : d.received = c.received := by
    rcases hs.received_cases with ⟨he, -⟩ | ⟨_, _, hnot, -⟩
    · exact he
    · rw [hcanceled] at hnot
      cases hnot
  suffices h : d.state.canceled = true ∧ d.endOfStream = c.endOfStream from
    ⟨h.1, hreceived, h.2⟩
  cases hs with
  | sink chunk exhaustedMemory hp hd =>
    obtain ⟨_, _, hend, _, _, he⟩ :=
      (c.enterSink chunk).testSink_seen settings chunk c.state.firstInsert exhaustedMemory
    rw [c.enterSink_eq chunk] at he hend ⊢
    exact ⟨he.trans hcanceled, hend⟩
  | @sinkResume chunk firstChunk exhaustedMemory hp =>
    obtain ⟨_, _, hend, _, _, he⟩ := c.testSink_seen settings chunk firstChunk exhaustedMemory
    exact ⟨he.trans hcanceled, hend⟩
  | @getNext scanState hc hs =>
    obtain ⟨_, _, hend, _, he, -⟩ := c.testGetNext_seen scanState
    exact ⟨he.trans hcanceled, hend⟩
  | @getNextResume scanState hc hs =>
    obtain ⟨_, _, hend, _, he, -⟩ := c.testGetNext_seen scanState
    exact ⟨he.trans hcanceled, hend⟩
  | @getNextReturn out hc =>
    have hcode : c.getNextCode ≠ 0 := by
      rw [ne_eq, Configuration.getNextCode_eq_zero, hcanceled]
      exact nofun
    rcases c.returnArray_cases out with ⟨_, he⟩ | ⟨hzero, _⟩ | ⟨hzero, _⟩
    · rw [he]
      exact ⟨hcanceled, rfl⟩
    · exact absurd hzero hcode
    · exact absurd hzero hcode
  | destroy hn hj hd => exact ⟨rfl, rfl⟩
  | _ => exact ⟨hcanceled, rfl⟩

/-- What the driver has received are the first of the rows passed to `Sink`. -/
theorem received_prefix {settings : InsertSettings} {c : Configuration D}
    (h : (insertSystem D settings).Reachable c) : c.received.flatten <+: chunkRows c.sunk := by
  refine h.invariant (I := fun c => c.received.flatten <+: chunkRows c.sunk) ?_ ?_
  · rintro _ rfl
    exact List.prefix_refl _
  · intro c a d hr hc hs
    rcases hs.received_cases with ⟨hreceived, ⟨more, hsunk⟩, -⟩ |
      ⟨rows, hconsumer, hcanceled, hreceived, hsunk, -⟩
    · rw [hreceived, ← hsunk]
      exact hc.trans ⟨chunkRows more, by simp [chunkRows]⟩
    · -- the batch is at the front of what is still under way
      have hflow := (delivering hr).flow hcanceled ((lifecycle hr).not_released_of_return hconsumer)
      rw [hconsumer] at hflow
      rw [hreceived, hsunk, hflow]
      simp only [Consumer.inFlight, Option.getD_some, List.flatten_append, List.flatten_singleton,
        List.append_assoc]
      exact ⟨_, by rw [List.append_assoc]⟩

/-- **The driver cannot take an insert for complete.** -/
structure NotComplete (settings : InsertSettings) (c : Configuration D) : Prop where
  /-- No `get_next` returns the end of the stream with code 0. -/
  returned : c.consumer = .getNextReturn none → c.getNextCode = ecanceled
  endOfStream : c.endOfStream = false
  /-- The batches that were returned with code 0 are the first of the rows passed to `Sink`. -/
  received : c.received.flatten <+: chunkRows c.sunk
  /-- From when the destructor has taken the lock, every `get_next` returns `ECANCELED`. -/
  destroyed : c.destroyer ≠ .notStarted →
    ∀ d, ((insertSystem D settings).startingAt c).Reachable d →
      d.getNextCode = ecanceled ∧ d.received = c.received ∧ d.endOfStream = false

/-- **An unfinished insert is never presented as a complete one.**  In every run in which `Finalize`
has not been called, the driver has not seen the end of the stream, and the batches it has received
are the first of the rows passed to `Sink`; and from when the destructor has taken the lock, every
`get_next` returns `ECANCELED`. -/
theorem unfinished_not_complete (D : ColumnDataCollection Row) (settings : InsertSettings)
    {c : Configuration D} (h : (insertSystem D settings).Reachable c)
    (hfinalized : c.finalized = false) : NotComplete settings c := by
  have hend : c.endOfStream = false := by
    by_contra hend
    rw [Bool.not_eq_false] at hend
    rw [((delivering h).complete hend).1] at hfinalized
    cases hfinalized
  refine ⟨fun hc => ?_, hend, received_prefix h, fun hd d hafter => ?_⟩
  · -- `get_next` has found the end because the destructor has set `done`
    rw [Configuration.getNextCode_eq_ecanceled]
    by_contra hcanceled
    rw [Bool.not_eq_true] at hcanceled
    have hending : c.consumer.Ending := by rw [hc]; rfl
    rw [((delivering h).ending hending hcanceled).1] at hfinalized
    cases hfinalized
  · have hcanceled := (lifecycle h).destroying.mp hd
    have hkept := h.after (Q := fun d => d.state.canceled = true ∧ d.received = c.received ∧
        d.endOfStream = c.endOfStream) ⟨hcanceled, rfl, rfl⟩ (fun s a s' _ hs hstep => by
      obtain ⟨hc', hr', he'⟩ := hstep.after_cancel hs.1
      exact ⟨hc', hr'.trans hs.2.1, he'.trans hs.2.2⟩) hafter
    exact ⟨Configuration.getNextCode_eq_ecanceled.mpr hkept.2.1, hkept.2.2.1,
      hkept.2.2.2.trans hend⟩

/-- The destructor runs after one batch, and the next `get_next` finds the end. -/
theorem destroyed_after_one_batch :
    ∃ c, (insertSystem (.dense Nat) ⟨false, 1⟩).Reachable c ∧ c.finalized = false ∧
      c.destroyer ≠ .notStarted ∧ c.consumer = .getNextReturn none ∧ c.received = [[0]] ∧
      NotComplete ⟨false, 1⟩ c := by
  have start : (insertSystem (.dense Nat) ⟨false, 1⟩).Reachable (.initial _) := .initial rfl
  have sunk := start.step (.sink ⟨[0], by decide⟩ false rfl rfl)
  have bound := (sunk.step (.sinkNotify rfl)).step (.createStream rfl)
  have read := (bound.step (.getNext rfl rfl)).step (.getNextNotify rfl)
  have received := read.step (.getNextReturn rfl)
  have destroyed := received.step (.destroy nofun nofun rfl)
  have ended := (destroyed.step (.getNext rfl rfl)).step (.getNextNotify rfl)
  exact ⟨_, ended, rfl, nofun, rfl, rfl, unfinished_not_complete _ _ ended rfl⟩

/-! ## Materialized input -/

/-- The insert thread is past the wait of `get_next`, and about to return from it. -/
def Consumer.Returning : Consumer Row → Prop
  | getNextNotify _ => True
  | getNextReturn _ => True
  | _ => False

@[simp] theorem Consumer.returning_notify (c : Consumer Row) :
    c.notify.Returning ↔ c.Returning := by
  cases c <;> exact Iff.rfl

/-- **The input is being materialized**: nothing is sent, and the buffer is not handed over, before
`Finalize`. -/
structure Materializing (c : Configuration D) : Prop where
  /-- The buffer is handed over by `done` only. -/
  full : c.state.full = false
  returning : c.consumer.Returning → c.finalized = true ∨ c.state.canceled = true
  received : c.received ≠ [] → c.finalized = true
  launched : c.sunk ≠ [] → c.state.firstInsert = false

/-- With materialized input a chunk does not fill the buffer. -/
theorem AdbcInsertGlobalState.insertChunk_full {settings : InsertSettings}
    (hmaterialize : settings.materializeInput = true) (firstChunk exhaustedMemory : Bool)
    (chunk : DataChunk Row) (g : AdbcInsertGlobalState D) :
    (g.insertChunk settings firstChunk exhaustedMemory chunk).full = g.full := by
  simp [insertChunk, hmaterialize]

namespace Materializing
variable {settings : InsertSettings}

theorem initial : Materializing (.initial D) where
  full := rfl
  returning h := h.elim
  received h := absurd rfl h
  launched h := absurd rfl h

theorem enterSink {c : Configuration D} (h : Materializing c) (chunk : DataChunk Row) :
    Materializing (c.enterSink chunk) := by
  rw [Configuration.enterSink_eq]
  refine ⟨h.full, fun hreturning => h.returning ?_, h.received, fun _ => rfl⟩
  cases hfirst : c.state.firstInsert with
  | true =>
    rw [hfirst] at hreturning
    exact hreturning.elim
  | false =>
    rw [hfirst] at hreturning
    exact hreturning

theorem testSink (hmaterialize : settings.materializeInput = true) {c : Configuration D}
    (h : Materializing c) (chunk : DataChunk Row) (firstChunk exhaustedMemory : Bool) :
    Materializing (c.testSink settings chunk firstChunk exhaustedMemory) := by
  rcases c.testSink_cases settings chunk firstChunk exhaustedMemory with
    ⟨_, _, he⟩ | ⟨_, _, he⟩ | ⟨_, _, he⟩
  · rw [he]
    exact ⟨h.full, h.returning, h.received, h.launched⟩
  · rw [he]
    exact ⟨h.full, h.returning, h.received, h.launched⟩
  · obtain ⟨_, hcanceled, hfirst, -⟩ :=
      c.state.insertChunk_flags settings firstChunk exhaustedMemory chunk
    have hfull := c.state.insertChunk_full hmaterialize firstChunk exhaustedMemory chunk
    rw [he]
    refine ⟨hfull.trans h.full, fun hreturning => ?_, h.received, fun hsunk => ?_⟩
    · rw [hcanceled]
      exact h.returning hreturning
    · rw [hfirst]
      exact h.launched hsunk

theorem testGetNext {c : Configuration D} (hl : Lifecycle c) (h : Materializing c)
    {scanState : D.ScanState} (hs : c.stream = .bound scanState) :
    Materializing (c.testGetNext scanState) := by
  -- the predicate holds only if `done` is set, and while the stream is bound that is
  -- by `Finalize` or by the destructor
  have hdone : c.state.done = true → c.finalized = true ∨ c.state.canceled = true := by
    intro hdone
    rcases hl.done_iff.mp hdone with hf | hc | hr
    · exact .inl hf
    · exact .inr hc
    · rw [hs] at hr
      cases hr
  rcases c.testGetNext_cases scanState with
    ⟨_, _, he⟩ | ⟨_, _, hpred, _, he⟩ | ⟨_, hfull, _, he⟩ | ⟨_, _, hdone', _, he⟩
  · rw [he]
    exact ⟨h.full, False.elim, h.received, h.launched⟩
  · have hdone' := hpred.resolve_left (by simp [h.full])
    rw [he]
    exact ⟨h.full, fun _ => hdone hdone', h.received, h.launched⟩
  · rw [h.full] at hfull
    cases hfull
  · rw [he]
    exact ⟨h.full, fun _ => hdone hdone', h.received, h.launched⟩

theorem returnArray {c : Configuration D} (h : Materializing c) {out : Option (List Row)}
    (hc : c.consumer = .getNextReturn out) : Materializing (c.returnArray out) := by
  rcases c.returnArray_cases out with ⟨_, he⟩ | ⟨hcode, rows, _, he⟩ | ⟨_, _, he⟩
  · rw [he]
    exact ⟨h.full, False.elim, h.received, h.launched⟩
  · have hfinalized : c.finalized = true := by
      have hreturning : c.consumer.Returning := by rw [hc]; trivial
      refine (h.returning hreturning).resolve_right ?_
      rw [Configuration.getNextCode_eq_zero.mp hcode]
      exact nofun
    rw [he]
    exact ⟨h.full, False.elim, fun _ => hfinalized, h.launched⟩
  · rw [he]
    exact ⟨h.full, False.elim, h.received, h.launched⟩

/-- A thread moves on, and not past the wait of `get_next`. -/
theorem moved {c : Configuration D} (h : Materializing c) (producer : Producer Row)
    {consumer : Consumer Row} (hc : consumer.Returning → c.consumer.Returning)
    (destroyer : Destroyer) :
    Materializing { c with producer := producer, consumer := consumer, destroyer := destroyer } :=
  ⟨h.full, fun hreturning => h.returning (hc hreturning), h.received, h.launched⟩

/-- **Nothing hands the buffer over early**: every step keeps this, with `materialize_input`. -/
theorem step (hmaterialize : settings.materializeInput = true) {c d : Configuration D}
    {a : InsertAction Row} (hl : Lifecycle c) (h : Materializing c) (hs : Step settings c a d) :
    Materializing d := by
  cases hs with
  | sink chunk exhaustedMemory hp hd => exact (h.enterSink chunk).testSink hmaterialize ..
  | sinkResume exhaustedMemory hp => exact h.testSink hmaterialize ..
  | getNext hc hs => exact h.testGetNext hl hs
  | getNextResume hc hs => exact h.testGetNext hl hs
  | getNextReturn hc => exact h.returnArray hc
  | finalize hp hd => exact ⟨h.full, fun _ => .inl rfl, fun _ => rfl, h.launched⟩
  | destroy hn hj hd => exact ⟨h.full, fun _ => .inr rfl, h.received, h.launched⟩
  | getNextNotify hc => exact h.moved _ (fun _ => by rw [hc]; trivial) _
  | sinkNotify hp => exact h.moved _ (Consumer.returning_notify _).mp _
  | finalizeNotify hp => exact h.moved _ (Consumer.returning_notify _).mp _
  | destroyNotifyConsumer hd => exact h.moved _ (Consumer.returning_notify _).mp _
  | wakeConsumer => exact h.moved _ (Consumer.returning_notify _).mp _
  | finalizeJoined hp hj => exact h.moved _ id _
  | destroyNotifyProducer hd => exact h.moved _ id _
  | destroyJoined hd hj => exact h.moved _ id _
  | releaseNotify hc => exact h.moved _ False.elim _
  | wakeProducer => exact h.moved _ id _
  | createStream hc => exact ⟨h.full, False.elim, h.received, h.launched⟩
  | release hc hs => exact ⟨h.full, False.elim, h.received, h.launched⟩
  | exit status rowsAffected hc hs => exact ⟨h.full, False.elim, h.received, h.launched⟩

end Materializing

theorem materializing {settings : InsertSettings} (hmaterialize : settings.materializeInput = true)
    {c : Configuration D} (h : (insertSystem D settings).Reachable c) : Materializing c :=
  h.invariant (fun _ hc => hc ▸ .initial)
    (fun _ _ _ hr hc hs => hc.step hmaterialize (lifecycle hr) hs)

/-- **Materialized input is complete before a row of it is sent.**  No `get_next` gets past
its wait before `Finalize` or the destructor has set `done`, and the driver receives nothing
before `Finalize`, although the insert thread runs from the first chunk on. -/
theorem materialized_before_sent (D : ColumnDataCollection Row) (settings : InsertSettings)
    (hmaterialize : settings.materializeInput = true) {c : Configuration D}
    (h : (insertSystem D settings).Reachable c) :
    (c.consumer.Returning →
      c.state.done = true ∧ (c.finalized = true ∨ c.state.canceled = true)) ∧
    (c.received ≠ [] ∨ c.endOfStream = true → c.finalized = true) ∧
    (c.sunk ≠ [] → c.consumer ≠ .notStarted) := by
  have hm := materializing hmaterialize h
  have hl := lifecycle h
  refine ⟨fun hreturning => ⟨?_, hm.returning hreturning⟩, ?_, fun hsunk hc => ?_⟩
  · rw [hl.done_iff, ← or_assoc]
    exact .inl (hm.returning hreturning)
  · rintro (hreceived | hend)
    · exact hm.received hreceived
    · exact ((delivering h).complete hend).1
  · have hfirst := hm.launched hsunk
    rw [hl.launched.mpr hc] at hfirst
    cases hfirst

/-- Two chunks over the limit of one, sent after `Finalize`. -/
theorem two_chunks_materialized :
    ∃ c, (insertSystem (.dense Nat) ⟨true, 1⟩).Reachable c ∧ c.received = [[0, 1]] ∧
      (c.consumer.Returning →
        c.state.done = true ∧ (c.finalized = true ∨ c.state.canceled = true)) ∧
      (c.received ≠ [] ∨ c.endOfStream = true → c.finalized = true) ∧
      (c.sunk ≠ [] → c.consumer ≠ .notStarted) := by
  have start : (insertSystem (.dense Nat) ⟨true, 1⟩).Reachable (.initial _) := .initial rfl
  have first := (start.step (.sink ⟨[0], by decide⟩ false rfl rfl)).step (.sinkNotify rfl)
  have second := (first.step (.sink ⟨[1], by decide⟩ true rfl rfl)).step (.sinkNotify rfl)
  have bound := second.step (.createStream rfl)
  have finalized := (bound.step (.finalize rfl rfl)).step (.finalizeNotify rfl)
  have read := (finalized.step (.getNext rfl rfl)).step (.getNextNotify rfl)
  have received := read.step (.getNextReturn rfl)
  exact ⟨_, received, rfl, materialized_before_sent _ ⟨true, 1⟩ rfl received⟩

end AdbcClient
