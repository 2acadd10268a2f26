import AdbcClient.InsertLifecycle

/-!
# The insert pipeline does not deadlock

The producer sleeps in `Sink` while the buffer is full, the insert thread in
`get_next` while it is not; `done` lets both go on.  Each flag is set under the lock
and the other thread notified after it, so there are moments when a thread sleeps
although its predicate holds.  `Awaited` is the invariant: at such a moment the
notification is still to come, from the thread that has set the flag.

`not_deadlocked` follows: if the producer can only go on when the insert thread does,
then the insert thread is neither waiting for the producer nor gone.
-/
namespace AdbcClient
open Runs

variable {Row : Type} {D : ColumnDataCollection Row}

/-- DuckDB's thread is inside the wait of `Sink`, and nothing has woken it up since it went to
sleep. -/
def Producer.Asleep : Producer Row → Prop
  | sinkWaiting _ _ wait => wait = .asleep
  | _ => False

/-- The insert thread is inside the wait of `get_next` and has not been notified since it went to
sleep. -/
def Consumer.Asleep (c : Consumer Row) : Prop := c = .getNextWaiting .asleep

/-- About to notify the producer from `get_next`. -/
def Consumer.Notifying : Consumer Row → Prop
  | getNextNotify _ => True
  | _ => False

theorem Producer.not_asleep_notify (p : Producer Row) : ¬ p.notify.Asleep := by
  cases p <;> simp [Producer.notify, Producer.Asleep]

theorem Consumer.not_asleep_notify (c : Consumer Row) : ¬ c.notify.Asleep := by
  cases c <;> simp [Consumer.notify, Consumer.Asleep]

@[simp] theorem Consumer.notifying_notify (c : Consumer Row) :
    c.notify.Notifying ↔ c.Notifying := by
  cases c <;> exact Iff.rfl

@[simp] theorem Consumer.notify_eq_releaseNotify {c : Consumer Row} :
    c.notify = .releaseNotify ↔ c = .releaseNotify := by
  cases c <;> simp [Consumer.notify]

@[simp] theorem Producer.notify_eq_sinkNotify {p : Producer Row} :
    p.notify = .sinkNotify ↔ p = .sinkNotify := by
  cases p <;> simp [Producer.notify]

@[simp] theorem Producer.notify_eq_finalizeNotify {p : Producer Row} :
    p.notify = .finalizeNotify ↔ p = .finalizeNotify := by
  cases p <;> simp [Producer.notify]

/-- **Sleepers are awaited**: a thread that sleeps although it could go on will be
notified. -/
structure Awaited (c : Configuration D) : Prop where
  /-- After `release` has set `done`, its notification of the producer is still to come. -/
  released : c.producer.Asleep → c.stream = .released → c.consumer = .releaseNotify
  /-- After `get_next` has reset the buffer and so made space, its notification of the producer is
  still to come. -/
  space : c.producer.Asleep → c.state.full = false → c.consumer.Notifying
  /-- After `Sink` has filled the buffer, its notification of the insert thread is still to come. -/
  filled : c.consumer.Asleep → c.state.full = true → c.producer = .sinkNotify
  /-- After `Finalize` or the destructor has set `done`. -/
  finished : c.consumer.Asleep → c.state.done = true →
    c.producer = .finalizeNotify ∨ c.destroyer = .notifyConsumer

namespace Awaited

theorem initial : Awaited (.initial D) :=
  ⟨fun h => h.elim, fun h => h.elim, nofun, nofun⟩

/-- Unless `get_next` is about to notify it, the producer sleeps on a full buffer. -/
theorem full_of_asleep {c : Configuration D} (h : Awaited c) (hn : ¬ c.consumer.Notifying)
    (hx : c.producer.Asleep) : c.state.full ≠ false :=
  fun hf => hn (h.space hx hf)

/-- Unless `Sink` is about to notify it, the insert thread sleeps on a buffer with room. -/
theorem room_of_asleep {c : Configuration D} (h : Awaited c) (hn : c.producer ≠ .sinkNotify)
    (hx : c.consumer.Asleep) : c.state.full ≠ true :=
  fun hf => hn (h.filled hx hf)

/-- A step that notifies the insert thread keeps it: that thread is awake, and for the other one
nothing has changed. -/
theorem consumerNotified {c : Configuration D} (h : Awaited c) {producer : Producer Row}
    (hp : producer.Asleep → c.producer.Asleep) (destroyer : Destroyer) :
    Awaited { c with
      producer := producer, destroyer := destroyer, consumer := c.consumer.notify } where
  released hx hs := Consumer.notify_eq_releaseNotify.mpr (h.released (hp hx) hs)
  space hx hf := (Consumer.notifying_notify _).mpr (h.space (hp hx) hf)
  filled hx := absurd hx (Consumer.not_asleep_notify _)
  finished hx := absurd hx (Consumer.not_asleep_notify _)

/-- The producer has been notified, by a thread that moves on without going to sleep. -/
theorem producerNotified {c : Configuration D} (h : Awaited c) {consumer : Consumer Row}
    (hc : consumer.Asleep → c.consumer.Asleep) {destroyer : Destroyer}
    (hd : c.destroyer = .notifyConsumer → destroyer = .notifyConsumer) :
    Awaited { c with
      producer := c.producer.notify, destroyer := destroyer, consumer := consumer } where
  released hx := absurd hx (Producer.not_asleep_notify _)
  space hx := absurd hx (Producer.not_asleep_notify _)
  filled hx hf := Producer.notify_eq_sinkNotify.mpr (h.filled (hc hx) hf)
  finished hx hdone := (h.finished (hc hx) hdone).imp Producer.notify_eq_finalizeNotify.mpr hd

/-- `Sink` starts the insert thread from nothing, and nobody sleeps before that. -/
theorem enterSink {c : Configuration D} (h : Awaited c)
    (hp : c.producer = .ready) (chunk : DataChunk Row) : Awaited (c.enterSink chunk) := by
  have hasleep : (if c.state.firstInsert then .starting else c.consumer).Asleep →
      c.consumer.Asleep := by
    cases c.state.firstInsert with
    | true => exact nofun
    | false => exact id
  have hnot : ¬ c.producer.Asleep := by rw [hp]; exact id
  rw [Configuration.enterSink_eq]
  exact ⟨fun hx => absurd hx hnot, fun hx => absurd hx hnot, fun hx => h.filled (hasleep hx),
    fun hx => h.finished (hasleep hx)⟩

theorem testSink {settings : InsertSettings} {chunk : DataChunk Row}
    {firstChunk exhaustedMemory : Bool} {c : Configuration D} (hl : Lifecycle c) (h : Awaited c)
    (hp : c.producer.Sinking) (hn : c.producer ≠ .sinkNotify) :
    Awaited (c.testSink settings chunk firstChunk exhaustedMemory) := by
  have hfinished : c.consumer.Asleep → c.state.done = true → c.destroyer = .notifyConsumer := by
    intro hx hdone
    refine (h.finished hx hdone).resolve_left fun hf => ?_
    rw [hf] at hp
    exact hp
  obtain ⟨hdone', -⟩ := c.state.insertChunk_flags settings firstChunk exhaustedMemory chunk
  rcases c.testSink_cases settings chunk firstChunk exhaustedMemory with
    ⟨hfull, hdone, he⟩ | ⟨_, _, he⟩ | ⟨_, _, he⟩
  · rw [he]
    refine ⟨fun _ hs => ?_, fun _ hf => ?_, fun hx hf => absurd hf (h.room_of_asleep hn hx),
      fun hx hd => .inr (hfinished hx hd)⟩
    · -- a stream that has been released would have set `done`
      rw [hl.done_iff.mpr (.inr (.inr hs))] at hdone
      cases hdone
    · exact absurd (hfull.symm.trans hf) (by decide)
  · rw [he]
    exact ⟨fun hx => hx.elim, fun hx => hx.elim, fun hx hf => absurd hf (h.room_of_asleep hn hx),
      fun hx hd => .inr (hfinished hx hd)⟩
  · rw [he]
    exact ⟨fun hx => hx.elim, fun hx => hx.elim, fun _ _ => rfl,
      fun hx hd => .inr (hfinished hx (hdone'.symm.trans hd))⟩

theorem testGetNext {scanState : D.ScanState} {c : Configuration D} (h : Awaited c)
    (hs : c.stream = .bound scanState) (hn : ¬ c.consumer.Notifying) :
    Awaited (c.testGetNext scanState) := by
  rcases c.testGetNext_cases scanState with
    ⟨hfull, hdone, he⟩ | ⟨_, _, _, _, he⟩ | ⟨_, _, _, he⟩ | ⟨_, _, _, _, he⟩
  · rw [he]
    refine ⟨fun _ hr => ?_, fun hx hf => absurd hf (h.full_of_asleep hn hx), fun _ hf => ?_,
      fun _ hd => ?_⟩
    · rw [hs] at hr
      cases hr
    · exact absurd (hfull.symm.trans hf) (by decide)
    · exact absurd (hdone.symm.trans hd) (by decide)
  · rw [he]
    exact ⟨fun _ => nofun, fun _ _ => trivial, nofun, nofun⟩
  · rw [he]
    exact ⟨fun _ => nofun, fun _ _ => trivial, nofun, nofun⟩
  · rw [he]
    exact ⟨fun _ => nofun, fun _ _ => trivial, nofun, nofun⟩

theorem returnArray {out : Option (List Row)} {c : Configuration D} (h : Awaited c)
    (hc : c.consumer = .getNextReturn out) : Awaited (c.returnArray out) := by
  -- neither a released stream nor space: the producer has been notified before
  have hreleased : c.producer.Asleep → c.stream ≠ .released := by
    intro hx hs
    have hn := h.released hx hs
    rw [hc] at hn
    cases hn
  have hn : ¬ c.consumer.Notifying := by rw [hc]; exact id
  unfold Configuration.returnArray
  split
  · exact ⟨fun hx hs => absurd hs (hreleased hx), fun hx hf => absurd hf (h.full_of_asleep hn hx),
      nofun, nofun⟩
  · split
    · exact ⟨fun hx hs => absurd hs (hreleased hx), fun hx hf => absurd hf (h.full_of_asleep hn hx),
        nofun, nofun⟩
    · exact ⟨fun hx hs => absurd hs (hreleased hx), fun hx hf => absurd hf (h.full_of_asleep hn hx),
        nofun, nofun⟩

/-- **Every step leaves sleepers awaited**: a step that makes the predicate of a sleeper true is one
whose notification is still to come. -/
theorem step {settings : InsertSettings} {c d : Configuration D} {a : InsertAction Row}
    (hl : Lifecycle c) (h : Awaited c) (hs : Step settings c a d) : Awaited d := by
  cases hs with
  | sink chunk exhaustedMemory hp hd =>
    refine testSink (hl.enterSink chunk) (h.enterSink hp chunk) ?_ ?_
    · rw [Configuration.enterSink_eq, hp]
      trivial
    · rw [Configuration.enterSink_eq, hp]
      exact nofun
  | sinkResume exhaustedMemory hp =>
    exact testSink hl h (by rw [hp]; trivial) (by rw [hp]; exact nofun)
  | sinkNotify hp => exact h.consumerNotified (by exact False.elim) _
  | finalize hp hd =>
    have hnot : ¬ c.producer.Asleep := by rw [hp]; exact id
    have hn : c.producer ≠ .sinkNotify := by rw [hp]; exact nofun
    exact ⟨fun hx => hx.elim, fun hx => hx.elim, fun hx hf => absurd hf (h.room_of_asleep hn hx),
      fun _ _ => .inl rfl⟩
  | finalizeNotify hp => exact h.consumerNotified (by exact False.elim) _
  | finalizeJoined hp hj =>
    have hn : c.producer ≠ .sinkNotify := by rw [hp]; exact nofun
    have hf : c.producer ≠ .finalizeNotify := by rw [hp]; exact nofun
    exact ⟨fun hx => hx.elim, fun hx => hx.elim, fun hx hf => absurd hf (h.room_of_asleep hn hx),
      fun hx hd => .inr ((h.finished hx hd).resolve_left hf)⟩
  | destroy hn hj hd => exact ⟨h.released, h.space, h.filled, fun _ _ => .inr rfl⟩
  | destroyNotifyConsumer hd => exact h.consumerNotified id _
  | destroyNotifyProducer hd => exact h.producerNotified id (fun hx => by rw [hd] at hx; cases hx)
  | destroyJoined hd hj =>
    refine ⟨h.released, h.space, h.filled, fun hx hdone => .inl ?_⟩
    refine (h.finished hx hdone).resolve_right fun hn => ?_
    rw [hd] at hn
    cases hn
  | createStream hc =>
    have hn : ¬ c.consumer.Notifying := by rw [hc]; exact id
    exact ⟨fun _ => nofun, fun hx hf => absurd hf (h.full_of_asleep hn hx), nofun, nofun⟩
  | getNext hc hs => exact h.testGetNext hs (by rw [hc]; exact id)
  | getNextResume hc hs => exact h.testGetNext hs (by rw [hc]; exact id)
  | getNextNotify hc => exact h.producerNotified (by exact nofun) id
  | getNextReturn hc => exact h.returnArray hc
  | release hc hs =>
    have hn : ¬ c.consumer.Notifying := by rw [hc]; exact id
    exact ⟨fun _ _ => rfl, fun hx hf => absurd hf (h.full_of_asleep hn hx), nofun, nofun⟩
  | releaseNotify hc => exact h.producerNotified (by exact nofun) id
  | exit status rowsAffected hc hs =>
    have hn : ¬ c.consumer.Notifying := by rw [hc]; exact id
    refine ⟨fun hx _ => ?_, fun hx hf => absurd hf (h.full_of_asleep hn hx), nofun, nofun⟩
    have hreleasing := h.released hx hs
    rw [hc] at hreleasing
    cases hreleasing
  | wakeProducer => exact h.producerNotified id id
  | wakeConsumer => exact h.consumerNotified id _

end Awaited

theorem awaited {settings : InsertSettings} {c : Configuration D}
    (h : (insertSystem D settings).Reachable c) : Awaited c :=
  h.invariant (fun _ hc => hc ▸ .initial) (fun _ _ _ hr hc hs => .step (lifecycle hr) hc hs)

/-! ## Deadlocks -/

/-- A thread inside `wait` cannot go on: it sleeps, or its predicate does not hold. -/
def Wait.Blocked (predicate : Bool) : Wait → Prop
  | asleep => True
  | awake => predicate = false

/-- The producer is blocked, in `Sink`'s wait or joining the insert thread. -/
def ProducerBlocked (c : Configuration D) : Prop :=
  (∃ chunk firstChunk wait, c.producer = .sinkWaiting chunk firstChunk wait ∧
    wait.Blocked (!c.state.full || c.state.done)) ∨
  ((c.producer = .finalizeJoin ∨ c.destroyer = .join) ∧ ¬ c.Joined)

/-- The insert thread is blocked in `get_next`'s wait, or has terminated. -/
def ConsumerStuck (c : Configuration D) : Prop :=
  (∃ wait, c.consumer = .getNextWaiting wait ∧ wait.Blocked (c.state.full || c.state.done)) ∨
  c.consumer = .exited

/-- A consumer that is blocked although it could go on is asleep. -/
theorem asleep_of_stuck {c : Configuration D} (h : ConsumerStuck c)
    (hpred : c.state.full = true ∨ c.state.done = true) (hx : c.consumer ≠ .exited) :
    c.consumer.Asleep := by
  obtain ⟨wait, hc, hb⟩ := h.resolve_right hx
  rw [hc]
  cases wait with
  | asleep => rfl
  | awake =>
    have hfalse : (c.state.full || c.state.done) = false := hb
    rw [Bool.or_eq_false_iff] at hfalse
    rcases hpred with hf | hd
    · rw [hfalse.1] at hf
      cases hf
    · rw [hfalse.2] at hd
      cases hd

/-- In a join, `done` is set and every notification of it has been sent. -/
theorem join_not_stuck {c : Configuration D} (hl : Lifecycle c) (h : Awaited c)
    (hjoin : c.producer = .finalizeJoin ∨ c.destroyer = .join) (hj : ¬ c.Joined) :
    ¬ ConsumerStuck c := by
  intro hstuck
  have hx : c.consumer ≠ .exited := fun hx => hj (.inr hx)
  have hdone : c.state.done = true := by
    rw [hl.done_iff]
    rcases hjoin with hp | hd
    · have hfin := hl.sinking
      rw [hp] at hfin
      exact .inl (by simpa [Producer.Sinking] using hfin)
    · exact .inr (.inl (hl.destroying.mp (by rw [hd]; exact Destroyer.noConfusion)))
  have hasleep := asleep_of_stuck hstuck (.inr hdone) hx
  rcases hjoin with hp | hd
  · have hdestroyer := hl.apart (.inr hp)
    rcases h.finished hasleep hdone with hp' | hd'
    · rw [hp] at hp'
      cases hp'
    · rw [hdestroyer] at hd'
      cases hd'
  · rcases h.finished hasleep hdone with hp' | hd'
    · have hdestroyer := hl.apart (.inl hp')
      rw [hd] at hdestroyer
      cases hdestroyer
    · rw [hd] at hd'
      cases hd'

/-- A producer blocked in `Sink` is waited for by nobody. -/
theorem sink_not_stuck {c : Configuration D} (hl : Lifecycle c) (h : Awaited c)
    {chunk : DataChunk Row} {firstChunk : Bool} {wait : Wait}
    (hp : c.producer = .sinkWaiting chunk firstChunk wait)
    (hb : wait.Blocked (!c.state.full || c.state.done)) : ¬ ConsumerStuck c := by
  intro hstuck
  have hasleep : c.consumer ≠ .exited → c.state.full = true ∨ c.state.done = true →
      c.consumer.Asleep := fun hx hpred => asleep_of_stuck hstuck hpred hx
  cases wait with
  | awake =>
    -- the buffer is full and nobody has set `done`
    have hfalse : (!c.state.full || c.state.done) = false := hb
    rw [Bool.or_eq_false_iff] at hfalse
    have hfull : c.state.full = true := by simpa using hfalse.1
    have hx : c.consumer ≠ .exited := by
      intro hx
      have hdone := hl.done_iff.mpr (.inr (.inr (hl.released_of_exited hx)))
      rw [hfalse.2] at hdone
      cases hdone
    have hnotify := h.filled (hasleep hx (.inl hfull)) hfull
    rw [hp] at hnotify
    cases hnotify
  | asleep =>
    have hpa : c.producer.Asleep := by rw [hp]; rfl
    have hx : c.consumer ≠ .exited := by
      intro hx
      have hn := h.released hpa (hl.released_of_exited hx)
      rw [hx] at hn
      cases hn
    cases hfull : c.state.full with
    | true =>
      have hnotify := h.filled (hasleep hx (.inl hfull)) hfull
      rw [hp] at hnotify
      cases hnotify
    | false =>
      have hn := h.space hpa hfull
      obtain ⟨w, hc, -⟩ := hstuck.resolve_right hx
      rw [hc] at hn
      exact hn

/-- **The insert pipeline does not deadlock**: in no reachable configuration is DuckDB's thread
blocked in `Sink`, or in the join of `Finalize`, while the insert thread is stuck. -/
theorem not_deadlocked (D : ColumnDataCollection Row) (settings : InsertSettings)
    {c : Configuration D} (h : (insertSystem D settings).Reachable c) :
    ¬ (ProducerBlocked c ∧ ConsumerStuck c) := by
  rintro ⟨⟨chunk, firstChunk, wait, hp, hb⟩ | ⟨hjoin, hj⟩, hstuck⟩
  · exact sink_not_stuck (lifecycle h) (awaited h) hp hb hstuck
  · exact join_not_stuck (lifecycle h) (awaited h) hjoin hj hstuck

/-- A chunk of one row, with which the runs below fill a buffer for one chunk. -/
def oneRow : DataChunk Nat := ⟨[0], by decide⟩

/-- With room for one chunk, the second `Sink` waits for the insert thread, which is not stuck. -/
theorem second_sink_waits :
    ∃ c, (insertSystem (.dense Nat) ⟨false, 1⟩).Reachable c ∧ ProducerBlocked c ∧
      ¬ ConsumerStuck c := by
  have start : (insertSystem (.dense Nat) ⟨false, 1⟩).Reachable (.initial _) := .initial rfl
  have first := start.step (.sink oneRow false rfl rfl)
  have notified := first.step (.sinkNotify rfl)
  have second := notified.step (.sink oneRow false rfl rfl)
  refine ⟨_, second, .inl ⟨oneRow, false, .asleep, rfl, trivial⟩, fun hstuck => ?_⟩
  exact not_deadlocked _ _ second ⟨.inl ⟨oneRow, false, .asleep, rfl, trivial⟩, hstuck⟩

end AdbcClient
