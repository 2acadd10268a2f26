import AdbcClient.DriverCalls

/-!
# Transactions

The extension leaves transactions to the remote database, one for each statement
(`adbc_transaction.cpp`).  `StartTransaction` asks whether auto-commit is on, on a connection
that it takes from the pool for the call, and refuses to start a transaction if it is off;
`CommitTransaction` and `RollbackTransaction` forget the transaction.

The option is read into a buffer for the longer of its two values.
`readAutocommit_iff` says what the test accepts.  `Session` are any number of calls with
other users of the pool between their critical sections; `transactions_accounted` says of
every interleaving where the connections and the transactions are.
-/
namespace AdbcClient
open Runs AdbcConnectionPool

namespace AdbcTransactionManager

/-- `MAX_OPTION_LEN`: room for either text of the option, with the terminator. -/
def maxOptionLen : Nat := max ("true".length + 1) ("false".length + 1)

/-- The text of the exception for a connection whose auto-commit is not on. -/
def autocommitOff : String :=
  "Running with the auto-commit option turned off is not yet supported with the ADBC extension"

/-- The test of `StartTransaction` on the answer of the driver for the option. -/
def readAutocommit (answer : OptionAnswer) : Except Exception Unit :=
  let (reply, optionValue, _) := getOption answer (List.replicate maxOptionLen '\x00')
  if reply.status = AdbcStatusCode.notFound then .ok ()
  else
    match checkAdbc reply .io with
    | .error e => .error e
    | .ok () =>
      if cString optionValue = ['t', 'r', 'u', 'e'] then .ok ()
      else .error (.notImplemented autocommitOff)

/-- A text of at most five bytes is `true` up to its terminator. -/
theorem cString_eq_true_iff {text : List Char} (h : text.length + 1 ≤ maxOptionLen) :
    cString text = ['t', 'r', 'u', 'e'] ↔
      text = ['t', 'r', 'u', 'e'] ∨ text = ['t', 'r', 'u', 'e', '\x00'] := by
  constructor
  · intro htrue
    have hprefix : cString text ++ text.dropWhile (· ≠ '\x00') = text :=
      List.takeWhile_append_dropWhile
    rw [htrue] at hprefix
    have hlength : text.length ≤ 5 := Nat.le_of_succ_le_succ h
    cases hrest : text.dropWhile (· ≠ '\x00') with
    | nil =>
      rw [hrest] at hprefix
      exact .inl hprefix.symm
    | cons c rest =>
      rw [hrest] at hprefix
      have hrest' : rest = [] := by
        rw [← hprefix, List.length_append, List.length_cons] at hlength
        have hnone : rest.length = 0 := by
          simp only [List.length_cons, List.length_nil] at hlength
          omega
        exact List.eq_nil_of_length_eq_zero hnone
      have hc : c = '\x00' := by
        have hnot := List.head?_dropWhile_not (· ≠ '\x00') text
        rw [hrest] at hnot
        simpa using hnot
      rw [hrest', hc] at hprefix
      exact .inr hprefix.symm
  · rintro (rfl | rfl) <;> decide

/-- **When a transaction is started**: the driver does not know the option, or its value is
`true`.  A value that does not fit into the buffer is refused like any other. -/
theorem readAutocommit_iff (answer : OptionAnswer) :
    readAutocommit answer = .ok () ↔
      (∃ reply failed, answer = .failure reply failed ∧ reply.status = AdbcStatusCode.notFound) ∨
      answer = .value ['t', 'r', 'u', 'e'] ∨ answer = .value ['t', 'r', 'u', 'e', '\x00'] := by
  cases answer with
  | failure reply failed =>
    by_cases hfound : reply.status = AdbcStatusCode.notFound
    · simp [readAutocommit, getOption, hfound, failed]
    · simp [readAutocommit, getOption, checkAdbc, hfound, failed]
  | value text =>
    have hbuffer := cString_getOption text maxOptionLen
    rw [readAutocommit]
    simp only [getOption_status, checkAdbc, if_pos Reply.isOk_success]
    rw [if_neg (by decide), hbuffer]
    by_cases hfits : text.length + 1 ≤ maxOptionLen
    · rw [if_pos hfits]
      have htrue := cString_eq_true_iff hfits
      by_cases hon : cString text = ['t', 'r', 'u', 'e']
      · simpa [hon] using htrue.mp hon
      · have hvalue := mt htrue.mpr hon
        rw [not_or] at hvalue
        simp [hon, hvalue]
    · rw [if_neg hfits]
      have hne : ∀ t : List Char, t.length + 1 ≤ maxOptionLen → text ≠ t := by
        rintro t ht rfl
        exact hfits ht
      simp [hne ['t', 'r', 'u', 'e'] (by decide), hne ['t', 'r', 'u', 'e', '\x00'] (by decide)]

end AdbcTransactionManager

/-! ## Sessions -/

namespace TransactionSession
open AdbcTransactionManager PoolRun
variable {ε τ : Type} [DecidableEq τ]

/-- The pool with its users, the handles of the calls of `StartTransaction` that have not got
their answer, and the map of transactions.  `started` and `ended` are those of the past. -/
structure Session (τ : Type) where
  pool : PoolRun.Configuration
  asking : List AdbcPooledConnection
  transactions : List τ
  started : List τ
  ended : List τ

/-- A new manager, with a new pool and no transactions. -/
def initial (maxConnections : UInt64) : Session τ := ⟨PoolRun.initial maxConnections, [], [], [], []⟩

/-- A step of a session: a critical section of one of the calls, or a step of the other users of
the pool. -/
inductive Action (ε τ : Type) where
  | others (action : PoolRun.Action ε)
  | ask (opening : Except ε Connection)
  | start (answer : OptionAnswer) (transaction : τ)
  | refuse (answer : OptionAnswer)
  | commit (transaction : τ)
  | rollback (transaction : τ)

/-- The handle of a call is destroyed when the driver has answered. -/
def Session.answered (s : Session τ) (handle : AdbcPooledConnection) : Session τ :=
  { s with
    pool :=
      { s.pool with
        pool := handle.destroy s.pool.pool, handles := s.pool.handles.erase handle }
    asking := s.asking.erase handle }

/-- `transactions.erase(transaction)`. -/
def Session.forget (s : Session τ) (transaction : τ) : Session τ :=
  { s with
    transactions := s.transactions.erase transaction
    ended := if transaction ∈ s.transactions then transaction :: s.ended else s.ended }

/-- The critical sections of the calls.  Others destroy their own handles, and a new
transaction is at an address where no other one is. -/
inductive Step : Session τ → Action ε τ → Session τ → Prop
  | others {s : Session τ} {action : PoolRun.Action ε} {pool : PoolRun.Configuration}
      (h : PoolRun.Step s.pool action pool)
      (own : ∀ handle, action = .destroy handle → handle ∉ s.asking) :
      Step s (.others action) { s with pool := pool }
  | ask {s : Session τ} {opening : Except ε Connection} {handle : AdbcPooledConnection}
      {pool : AdbcConnectionPool} (fresh : Fresh s.pool opening)
      (h : getConnection opening s.pool.pool = (.ok handle, pool)) :
      Step s (.ask opening)
        { s with pool := s.pool.receive pool handle, asking := handle :: s.asking }
  | askThrows {s : Session τ} {opening : Except ε Connection} {e : ε}
      {pool : AdbcConnectionPool} (fresh : Fresh s.pool opening)
      (h : getConnection opening s.pool.pool = (.error e, pool)) :
      Step s (.ask opening) { s with pool := { s.pool with pool := pool } }
  | start {s : Session τ} {handle : AdbcPooledConnection} {answer : OptionAnswer}
      {transaction : τ} (asking : handle ∈ s.asking)
      (on : readAutocommit answer = .ok ()) (fresh : transaction ∉ s.transactions) :
      Step s (.start answer transaction)
        { s.answered handle with
          transactions := transaction :: s.transactions
          started := transaction :: s.started }
  | refuse {s : Session τ} {handle : AdbcPooledConnection} {answer : OptionAnswer}
      {e : Exception} (asking : handle ∈ s.asking) (off : readAutocommit answer = .error e) :
      Step s (.refuse answer) (s.answered handle)
  | commit {s : Session τ} (transaction : τ) :
      Step s (.commit transaction) (s.forget transaction)
  | rollback {s : Session τ} (transaction : τ) :
      Step s (.rollback transaction) (s.forget transaction)

/-- The manager with the users of the pool. -/
def system (ε τ : Type) [DecidableEq τ] (maxConnections : UInt64) :
    TransitionSystem (Session τ) (Action ε τ) where
  initial := (· = initial maxConnections)
  step := Step

/-- **The invariant**: transactions are in the map or have ended, and the handles of calls are
handles of the pool. -/
structure Accounted (ε : Type) (limit : UInt64) (s : Session τ) : Prop where
  pool : (PoolRun.system ε limit).Reachable s.pool
  /-- A call has its handle until it is answered. -/
  asking : ∀ handle ∈ s.asking, handle ∈ s.pool.handles
  asking_nodup : s.asking.Nodup
  transactions_nodup : s.transactions.Nodup
  /-- A transaction is in the map, or has ended once. -/
  places : (s.transactions ++ s.ended).Perm s.started

omit [DecidableEq τ] in
theorem accounted_initial (limit : UInt64) : Accounted ε limit (initial limit : Session τ) where
  pool := .initial rfl
  asking := by simp [initial]
  asking_nodup := List.nodup_nil
  transactions_nodup := List.nodup_nil
  places := List.Perm.refl _

namespace Accounted
variable {limit : UInt64} {s : Session τ}

omit [DecidableEq τ] in
/-- **An answer** gives the connection of its call back, and keeps the invariant. -/
theorem answered (hs : Accounted ε limit s) {handle : AdbcPooledConnection}
    (h : handle ∈ s.asking) : Accounted ε limit (s.answered handle) := by
  refine ⟨hs.pool.step (.destroy (hs.asking handle h)), fun k hk => ?_,
    hs.asking_nodup.erase handle, hs.transactions_nodup, hs.places⟩
  obtain ⟨hne, hmem⟩ := hs.asking_nodup.mem_erase_iff.mp hk
  exact (List.mem_erase_of_ne hne).mpr (hs.asking k hmem)

/-- **The end of a transaction** takes it out of the map, and keeps the invariant. -/
theorem forget (hs : Accounted ε limit s) (transaction : τ) :
    Accounted ε limit (s.forget transaction) := by
  refine ⟨hs.pool, hs.asking, hs.asking_nodup, hs.transactions_nodup.erase transaction, ?_⟩
  show (s.transactions.erase transaction ++
    if transaction ∈ s.transactions then transaction :: s.ended else s.ended).Perm s.started
  by_cases hmem : transaction ∈ s.transactions
  · rw [if_pos hmem]
    have hone := List.perm_cons_erase hmem
    exact (List.perm_middle.trans (hone.symm.append_right s.ended)).trans hs.places
  · rw [if_neg hmem, List.erase_of_not_mem hmem]
    exact hs.places

/-- **One step** keeps the invariant, whatever the driver answers in it. -/
theorem step (hs : Accounted ε limit s) {a : Action ε τ} {s' : Session τ} (h : Step s a s') :
    Accounted ε limit s' := by
  cases h with
  | @others action pool h own =>
    refine ⟨hs.pool.step h, fun k hk => ?_, hs.asking_nodup, hs.transactions_nodup, hs.places⟩
    have hmem := hs.asking k hk
    cases h with
    | get fresh h => exact List.mem_cons_of_mem _ hmem
    | throw fresh h => exact hmem
    | @destroy handle hhandle =>
      have hne : k ≠ handle := by
        rintro rfl
        exact own k rfl hk
      exact (List.mem_erase_of_ne hne).mpr hmem
  | @ask opening handle pool fresh h =>
    have hpool : (PoolRun.system ε limit).Reachable (s.pool.receive pool handle) :=
      hs.pool.step (.get fresh h)
    have hunused := (PoolRun.accounted hpool).users_nodup
    have hnew : handle ∉ s.asking := fun hmem =>
      (List.nodup_cons.mp hunused).1 (List.mem_map_of_mem (hs.asking handle hmem))
    refine ⟨hpool, fun k hk => ?_, List.nodup_cons.mpr ⟨hnew, hs.asking_nodup⟩,
      hs.transactions_nodup, hs.places⟩
    rcases List.mem_cons.mp hk with rfl | hk
    · exact List.mem_cons_self
    · exact List.mem_cons_of_mem _ (hs.asking k hk)
  | askThrows fresh h =>
    exact ⟨hs.pool.step (.throw fresh h), hs.asking, hs.asking_nodup, hs.transactions_nodup,
      hs.places⟩
  | start asking on fresh =>
    have hanswered := hs.answered asking
    exact ⟨hanswered.pool, hanswered.asking, hanswered.asking_nodup,
      List.nodup_cons.mpr ⟨fresh, hs.transactions_nodup⟩, hs.places.cons _⟩
  | refuse asking off => exact hs.answered asking
  | commit transaction => exact hs.forget transaction
  | rollback transaction => exact hs.forget transaction

end Accounted

theorem accounted {limit : UInt64} {s : Session τ} (hs : (system ε τ limit).Reachable s) :
    Accounted ε limit s :=
  hs.invariant (fun _ h => h ▸ accounted_initial limit) (fun _ _ _ _ hI h => hI.step h)

/-- Auto-commit is on: the driver has said so, or does not know the option.  Every other answer
counts as off, another text as well as a call that has failed in another way. -/
def AutocommitOn (answer : OptionAnswer) : Prop :=
  (∃ reply failed, answer = .failure reply failed ∧ reply.status = AdbcStatusCode.notFound) ∨
    answer = .value ['t', 'r', 'u', 'e'] ∨ answer = .value ['t', 'r', 'u', 'e', '\x00']

omit [DecidableEq τ] in
/-- An answer ends the loan of one handle. -/
theorem Accounted.handles_answered {limit : UInt64} {s : Session τ} (hs : Accounted ε limit s)
    {handle : AdbcPooledConnection} (h : handle ∈ s.asking) :
    (s.answered handle).pool.handles.length + 1 = s.pool.handles.length := by
  have hmem := hs.asking handle h
  have hpos := List.length_pos_of_mem hmem
  show (s.pool.handles.erase handle).length + 1 = s.pool.handles.length
  rw [List.length_erase_of_mem hmem]
  omega

/-- **The manager accounts for its transactions, and for the connections it borrows.**  In
every interleaving with other users of the pool: a transaction is started only if auto-commit
is on, and is refused only if it is off; either answer gives back the connection that the call
had; a started transaction is in the map or has ended once; and when no handle is alive, all
connections of the pool are idle. -/
theorem transactions_accounted {limit : UInt64} {s : Session τ}
    (hs : (system ε τ limit).Reachable s) :
    (s.transactions.Nodup ∧ (s.transactions ++ s.ended).Perm s.started) ∧
    (s.asking.Nodup ∧ ∀ handle ∈ s.asking, handle ∈ s.pool.handles) ∧
    (∀ answer transaction s', Step (ε := ε) s (.start answer transaction) s' →
      AutocommitOn answer ∧ s'.transactions = transaction :: s.transactions ∧
        s'.pool.handles.length + 1 = s.pool.handles.length) ∧
    (∀ answer s', Step (ε := ε) s (.refuse answer) s' →
      ¬ AutocommitOn answer ∧ s'.transactions = s.transactions ∧
        s'.pool.handles.length + 1 = s.pool.handles.length) ∧
    (s.pool.handles = [] → s.asking = [] ∧ s.pool.pool.activeConnections = 0 ∧
      s.pool.pool.connections.Perm s.pool.pooled) := by
  have hI : Accounted ε limit s := accounted hs
  refine ⟨⟨hI.transactions_nodup, hI.places⟩, ⟨hI.asking_nodup, hI.asking⟩, ?_, ?_, ?_⟩
  · intro answer transaction s' h
    cases h with
    | start asking on fresh =>
      exact ⟨(readAutocommit_iff answer).mp on, rfl, hI.handles_answered asking⟩
  · intro answer s' h
    cases h with
    | refuse asking off =>
      refine ⟨fun hon => ?_, rfl, hI.handles_answered asking⟩
      rw [(readAutocommit_iff answer).mpr hon] at off
      cases off
  · intro hnone
    have hpool := PoolRun.accounted hI.pool
    have hactive := hpool.active_eq
    have hplaces := hpool.places
    rw [hnone] at hactive hplaces
    refine ⟨List.eq_nil_iff_forall_not_mem.mpr fun handle hh => ?_, UInt64.toNat.inj hactive, ?_⟩
    · exact absurd (hI.asking handle hh) (by simp [hnone])
    · simpa [handedOut] using hplaces

/-- A transaction is started, and ends with a commit. -/
theorem one_transaction_accounted :
    ∃ s, (system Unit Nat 1).Reachable s ∧ s.transactions = [] ∧ s.ended = [7] ∧
      s.pool.pool.activeConnections = 0 := by
  have start : (system Unit Nat 1).Reachable (initial 1) := .initial rfl
  have asked := start.step (show Step _ (.ask (.ok 3)) _ from .ask (by simp [Fresh, initial, PoolRun.initial]) rfl)
  have started := asked.step (.start List.mem_cons_self
    ((readAutocommit_iff (.value ['t', 'r', 'u', 'e'])).mpr (.inr (.inl rfl)))
    (show 7 ∉ [] by simp))
  have ended := started.step (.commit 7)
  exact ⟨_, ended, rfl, rfl, ((transactions_accounted ended).2.2.2.2 rfl).2.1⟩

end TransactionSession
end AdbcClient
