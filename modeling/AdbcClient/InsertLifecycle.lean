import AdbcClient.InsertMachine

/-!
# The phases of an insert

How the flags go with where the threads are.  The insert thread exists once the
first chunk has been passed to `Sink`; its stream is bound while the driver reads and
released before the thread exits; `done` is set by `Finalize`, by the destructor or by
the release of the stream, and by nothing else (`Lifecycle`).
-/
namespace AdbcClient
open Runs

variable {Row : Type} {D : ColumnDataCollection Row}

/-- The stream that goes with where the insert thread is. -/
def Consumer.Fits : Consumer Row → BoundStream D → Prop
  | notStarted, stream => stream = .notCreated
  | starting, stream => stream = .notCreated
  | running, stream => stream ≠ .notCreated
  | getNextWaiting _, stream => ∃ scanState, stream = .bound scanState
  | getNextNotify _, stream => ∃ scanState, stream = .bound scanState
  | getNextReturn _, stream => ∃ scanState, stream = .bound scanState
  | releaseNotify, stream => stream = .released
  | exited, stream => stream = .released

/-- Inside `Sink`, or between calls before `Finalize`. -/
def Producer.Sinking : Producer Row → Prop
  | ready => True
  | sinkWaiting _ _ _ => True
  | sinkNotify => True
  | finalizeNotify => False
  | finalizeJoin => False
  | finalized _ => False

/-- Inside `Finalize`, before the end of the join. -/
def Producer.Finalizing (p : Producer Row) : Prop := p = .finalizeNotify ∨ p = .finalizeJoin

@[simp] theorem Consumer.fits_notify (c : Consumer Row) (stream : BoundStream D) :
    c.notify.Fits stream ↔ c.Fits stream := by
  cases c <;> exact Iff.rfl

@[simp] theorem Consumer.notify_eq_notStarted {c : Consumer Row} :
    c.notify = .notStarted ↔ c = .notStarted := by
  cases c <;> simp [Consumer.notify]

@[simp] theorem Producer.sinking_notify (p : Producer Row) : p.notify.Sinking ↔ p.Sinking := by
  cases p <;> exact Iff.rfl

@[simp] theorem Producer.finalizing_notify (p : Producer Row) :
    p.notify.Finalizing ↔ p.Finalizing := by
  cases p <;> simp [Producer.notify, Producer.Finalizing]

/-- **The phases** of an insert: what the flags and the threads have to do with each other. -/
structure Lifecycle (c : Configuration D) : Prop where
  /-- The insert thread starts with the first insert. -/
  launched : c.state.firstInsert = true ↔ c.consumer = .notStarted
  fits : c.consumer.Fits c.stream
  sinking : c.producer.Sinking ↔ c.finalized = false
  destroying : c.destroyer ≠ .notStarted ↔ c.state.canceled = true
  /-- `Finalize` and the destructor do not overlap. -/
  apart : c.producer.Finalizing → c.destroyer = .notStarted
  /-- What sets `done`: `Finalize`, the destructor, or the release of the stream. -/
  done_iff : c.state.done = true ↔
    c.finalized = true ∨ c.state.canceled = true ∨ c.stream = .released

namespace Lifecycle

theorem initial : Lifecycle (.initial D) where
  launched := iff_of_true rfl rfl
  fits := rfl
  sinking := iff_of_true trivial rfl
  destroying := iff_of_false (fun h => h rfl) Bool.false_ne_true
  apart _ := rfl
  done_iff := by simp [Configuration.initial, AdbcInsertGlobalState.new]

/-- While the stream is bound and chunks may come, nobody has set `done`. -/
theorem done_eq_false {c : Configuration D} (h : Lifecycle c) (hp : c.producer.Sinking)
    (hcanceled : c.state.canceled = false) (hs : c.stream ≠ .released) :
    c.state.done = false := by
  rw [Bool.eq_false_iff, ne_eq, h.done_iff, h.sinking.mp hp, hcanceled]
  rintro (hf | hc | hr)
  · cases hf
  · cases hc
  · exact hs hr

/-! What the place of the insert thread says about its stream. -/

theorem notCreated_of_starting {c : Configuration D} (h : Lifecycle c)
    (hc : c.consumer = .starting) : c.stream = .notCreated := by
  have hfits := h.fits
  rw [hc] at hfits
  exact hfits

theorem not_released_of_return {c : Configuration D} (h : Lifecycle c) {out : Option (List Row)}
    (hc : c.consumer = .getNextReturn out) : c.stream ≠ .released := by
  have hfits := h.fits
  rw [hc] at hfits
  obtain ⟨scanState, hs⟩ := hfits
  rw [hs]
  exact nofun

theorem released_of_exited {c : Configuration D} (h : Lifecycle c) (hc : c.consumer = .exited) :
    c.stream = .released := by
  have hfits := h.fits
  rw [hc] at hfits
  exact hfits

theorem enterSink {c : Configuration D} (h : Lifecycle c) (chunk : DataChunk Row) :
    Lifecycle (c.enterSink chunk) := by
  rw [Configuration.enterSink_eq]
  refine ⟨?_, ?_, h.sinking, h.destroying, h.apart, h.done_iff⟩
  · cases hfirst : c.state.firstInsert with
    | true => exact iff_of_false Bool.false_ne_true (by simp)
    | false =>
      refine iff_of_false Bool.false_ne_true fun hc => ?_
      rw [h.launched.mpr hc] at hfirst
      cases hfirst
  · cases hfirst : c.state.firstInsert with
    | true =>
      have hfits := h.fits
      rw [h.launched.mp hfirst] at hfits
      exact hfits
    | false => exact h.fits

theorem testSink {settings : InsertSettings} {chunk : DataChunk Row}
    {firstChunk exhaustedMemory : Bool} {c : Configuration D} (h : Lifecycle c)
    (hp : c.producer.Sinking) :
    Lifecycle (c.testSink settings chunk firstChunk exhaustedMemory) := by
  obtain ⟨hdone, hcanceled, hfirst, -⟩ :=
    c.state.insertChunk_flags settings firstChunk exhaustedMemory chunk
  -- the producer stays in `Sink`, or goes back to `ready`
  have hsinking := iff_of_true trivial (h.sinking.mp hp)
  rcases c.testSink_cases settings chunk firstChunk exhaustedMemory with
    ⟨_, _, he⟩ | ⟨_, _, he⟩ | ⟨_, _, he⟩
  · rw [he]
    exact ⟨h.launched, h.fits, hsinking, h.destroying, (by simp [Producer.Finalizing]), h.done_iff⟩
  · rw [he]
    exact ⟨h.launched, h.fits, hsinking, h.destroying, (by simp [Producer.Finalizing]), h.done_iff⟩
  · rw [he]
    refine ⟨?_, h.fits, hsinking, ?_, by simp [Producer.Finalizing], ?_⟩
    · simpa only [hfirst] using h.launched
    · simpa only [hcanceled] using h.destroying
    · simpa only [hdone, hcanceled] using h.done_iff

theorem testGetNext {scanState : D.ScanState} {c : Configuration D} (h : Lifecycle c)
    (hs : c.stream = .bound scanState) (hc : c.consumer ≠ .notStarted) :
    Lifecycle (c.testGetNext scanState) := by
  have hlaunched : ¬ c.state.firstInsert = true := fun hf => hc (h.launched.mp hf)
  have hreleased : ∀ next : D.ScanState, (BoundStream.bound next = .released) ↔
      c.stream = .released := fun next => by simp [hs]
  rcases c.testGetNext_cases scanState with
    ⟨_, _, he⟩ | ⟨_, next, _, _, he⟩ | ⟨_, _, _, he⟩ | ⟨next, _, _, _, he⟩
  · rw [he]
    exact ⟨iff_of_false hlaunched nofun, ⟨scanState, hs⟩, h.sinking, h.destroying, h.apart,
      h.done_iff⟩
  · rw [he]
    refine ⟨iff_of_false hlaunched nofun, ⟨next, rfl⟩, h.sinking, h.destroying, h.apart, ?_⟩
    simpa only [hreleased] using h.done_iff
  · rw [he]
    refine ⟨iff_of_false hlaunched nofun, ⟨_, rfl⟩, h.sinking, h.destroying, h.apart, ?_⟩
    simpa only [hreleased] using h.done_iff
  · rw [he]
    refine ⟨iff_of_false hlaunched nofun, ⟨next, rfl⟩, h.sinking, h.destroying, h.apart, ?_⟩
    simpa only [hreleased] using h.done_iff

theorem returnArray {out : Option (List Row)} {c : Configuration D} (h : Lifecycle c)
    (hc : c.consumer = .getNextReturn out) : Lifecycle (c.returnArray out) := by
  have hlaunched : ¬ c.state.firstInsert = true := by
    rw [h.launched, hc]
    exact nofun
  have hfits : (Consumer.running : Consumer Row).Fits c.stream := by
    have hbound := h.fits
    rw [hc] at hbound
    obtain ⟨scanState, hs⟩ := hbound
    rw [hs]
    exact nofun
  unfold Configuration.returnArray
  split
  · exact ⟨iff_of_false hlaunched nofun, hfits, h.sinking, h.destroying, h.apart, h.done_iff⟩
  · split
    · exact ⟨iff_of_false hlaunched nofun, hfits, h.sinking, h.destroying, h.apart, h.done_iff⟩
    · exact ⟨iff_of_false hlaunched nofun, hfits, h.sinking, h.destroying, h.apart, h.done_iff⟩

/-- A thread moves on within its phase. -/
theorem moved {c : Configuration D} (h : Lifecycle c) {producer : Producer Row}
    (hp : producer.Sinking ↔ c.producer.Sinking)
    (hf : producer.Finalizing → c.producer.Finalizing) {consumer : Consumer Row}
    (hn : consumer = .notStarted ↔ c.consumer = .notStarted) (hc : consumer.Fits c.stream)
    {destroyer : Destroyer} (hd : destroyer = .notStarted ↔ c.destroyer = .notStarted) :
    Lifecycle { c with producer := producer, consumer := consumer, destroyer := destroyer } where
  launched := h.launched.trans hn.symm
  fits := hc
  sinking := hp.trans h.sinking
  destroying := (not_congr hd).trans h.destroying
  apart hx := hd.mpr (h.apart (hf hx))
  done_iff := h.done_iff

/-- **The phases are kept** by every step of every thread. -/
theorem step {settings : InsertSettings} {c d : Configuration D} {a : InsertAction Row}
    (h : Lifecycle c) (hs : Step settings c a d) : Lifecycle d := by
  have hfits := h.fits
  cases hs with
  | sink chunk exhaustedMemory hp hd =>
    apply (h.enterSink chunk).testSink
    rw [Configuration.enterSink_eq, hp]
    trivial
  | sinkResume exhaustedMemory hp => exact h.testSink (by rw [hp]; trivial)
  | sinkNotify hp =>
    exact h.moved (by rw [hp]; exact Iff.rfl) (by rw [hp]; simp [Producer.Finalizing])
      Consumer.notify_eq_notStarted ((Consumer.fits_notify ..).mpr hfits) Iff.rfl
  | finalize hp hd =>
    refine ⟨h.launched, hfits, iff_of_false id nofun, h.destroying, fun _ => hd, ?_⟩
    exact iff_of_true rfl (.inl rfl)
  | finalizeNotify hp =>
    exact h.moved (by rw [hp]; exact Iff.rfl) (fun _ => .inl hp)
      Consumer.notify_eq_notStarted ((Consumer.fits_notify ..).mpr hfits) Iff.rfl
  | finalizeJoined hp hj =>
    exact h.moved (by rw [hp]; exact Iff.rfl) (fun _ => .inr hp) Iff.rfl hfits Iff.rfl
  | destroy hn hj hd =>
    refine ⟨h.launched, hfits, h.sinking, iff_of_true nofun rfl, fun hx => ?_,
      iff_of_true rfl (.inr (.inl rfl))⟩
    exact (hx.elim hn hj).elim
  | destroyNotifyConsumer hd =>
    exact h.moved Iff.rfl id Consumer.notify_eq_notStarted
      ((Consumer.fits_notify ..).mpr hfits) (by rw [hd]; simp)
  | destroyNotifyProducer hd =>
    exact h.moved (Producer.sinking_notify _) (Producer.finalizing_notify _).mp Iff.rfl hfits
      (by rw [hd]; simp)
  | destroyJoined hd hj => exact h.moved Iff.rfl id Iff.rfl hfits (by rw [hd]; simp)
  | createStream hc =>
    have hstream := h.notCreated_of_starting hc
    refine ⟨?_, nofun, h.sinking, h.destroying, h.apart, ?_⟩
    · rw [h.launched, hc]
      simp
    · simpa only [hstream, reduceCtorEq] using h.done_iff
  | getNext hc hs => exact h.testGetNext hs (by rw [hc]; exact nofun)
  | getNextResume hc hs => exact h.testGetNext hs (by rw [hc]; exact nofun)
  | getNextNotify hc =>
    rw [hc] at hfits
    refine h.moved (Producer.sinking_notify _) (Producer.finalizing_notify _).mp ?_ ?_ Iff.rfl
    · rw [hc]
      simp
    · exact hfits
  | getNextReturn hc => exact h.returnArray hc
  | release hc hs =>
    refine ⟨?_, rfl, h.sinking, h.destroying, h.apart, iff_of_true rfl (.inr (.inr rfl))⟩
    rw [h.launched, hc]
    simp
  | releaseNotify hc =>
    rw [hc] at hfits
    have hstream : c.stream = .released := hfits
    refine h.moved (Producer.sinking_notify _) (Producer.finalizing_notify _).mp ?_ ?_ Iff.rfl
    · rw [hc]
      simp
    · rw [hstream]
      exact nofun
  | exit status rowsAffected hc hs =>
    refine ⟨?_, hs, h.sinking, h.destroying, h.apart, h.done_iff⟩
    rw [h.launched, hc]
    simp
  | wakeProducer =>
    exact h.moved (Producer.sinking_notify _) (Producer.finalizing_notify _).mp Iff.rfl hfits
      Iff.rfl
  | wakeConsumer =>
    exact h.moved Iff.rfl id Consumer.notify_eq_notStarted ((Consumer.fits_notify ..).mpr hfits)
      Iff.rfl

end Lifecycle

theorem lifecycle {settings : InsertSettings} {c : Configuration D}
    (h : (insertSystem D settings).Reachable c) : Lifecycle c :=
  h.invariant (fun _ hc => hc ▸ .initial) (fun _ _ _ _ hc hs => hc.step hs)

end AdbcClient
