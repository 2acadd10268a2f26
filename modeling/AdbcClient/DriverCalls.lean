import AdbcClient.ConnectionPool

/-!
# Calls to a driver

Every ADBC call returns a status and may leave a message (`adbc.h`).  The extension tests the
status with `CHECK_ADBC`, which throws the exception that the call site names
(`adbc_util.hpp`).  A call of the driver manager may also be left by an exception of the file
system, which nobody catches on the way to DuckDB.

A text of the driver or of the computer is a list of its bytes, a `Char` for each, as everywhere
(`QueryText`): the length of a text is what a buffer for it has to hold.

`getOption` is a call that returns a text of any length: the driver writes it into the
caller's buffer only if it fits, and always says how long it is.  `lend` is a call on a
connection that the pool lends for that long; `lend_cases` says what it leaves of the pool,
whether the call throws or not.
-/
namespace AdbcClient

/-- `AdbcStatusCode`. -/
abbrev AdbcStatusCode := UInt8

namespace AdbcStatusCode

def ok : AdbcStatusCode := 0
def notImplemented : AdbcStatusCode := 2
def notFound : AdbcStatusCode := 3
def invalidArgument : AdbcStatusCode := 5
def invalidState : AdbcStatusCode := 6
def internal : AdbcStatusCode := 9

end AdbcStatusCode

/-- What a call returns, and the message in its `AdbcError`. -/
structure Reply where
  status : AdbcStatusCode
  message : Option String
  deriving DecidableEq, Repr

namespace Reply

/-- The reply of a call that succeeds, which leaves no message. -/
def success : Reply := ⟨.ok, none⟩

/-- The call has succeeded: its status is `ADBC_STATUS_OK`. -/
def isOk (reply : Reply) : Bool := reply.status == .ok

@[simp] theorem isOk_success : success.isOk = true := rfl

/-- `SetError`, with the status that is returned after it. -/
def managerError (status : AdbcStatusCode) (message : String) : Reply :=
  ⟨status, some ("[Driver Manager] " ++ message)⟩

/-- `AdbcToString`. -/
def text (reply : Reply) : String := reply.message.getD ""

end Reply

/-- What a call comes to that does not succeed: it returns another status, or it is left by an
exception of the file system. -/
inductive Failure where
  | returned (reply : Reply) (failed : reply.isOk = false)
  | thrown (what : String)
  deriving DecidableEq

/-- `SetError` and `return ADBC_STATUS_INVALID_ARGUMENT`, with the driver manager's name in front of
the message. -/
def Failure.invalidArgument (message : String) : Failure :=
  .returned (.managerError .invalidArgument message) rfl

/-- `SetError` and `return ADBC_STATUS_NOT_FOUND`, with the driver manager's name in front of the
message. -/
def Failure.notFound (message : String) : Failure :=
  .returned (.managerError .notFound message) rfl

/-- The exceptions of the extension with their texts, and `std::filesystem::filesystem_error`. -/
inductive Exception where
  | filesystem (message : String)
  | binder (message : String)
  | io (message : String)
  | notImplemented (message : String)
  | invalidInput (message : String)
  deriving DecidableEq, Repr

/-- What the constructor of a connection throws for a call that does not succeed. -/
def Failure.exception : Failure → Exception
  | .returned reply _ => .binder reply.text
  | .thrown what => .filesystem what

/-- A call that no exception has left. -/
def returns {α β : Type} (result : α × β) : Except String α × β := (.ok result.1, result.2)

/-- `CHECK_ADBC`. -/
def checkAdbc (reply : Reply) (thrown : String → Exception) : Except Exception Unit :=
  if reply.isOk then .ok () else .error (thrown reply.text)

/-! ## Options -/

/-- What a driver has for an option when it is asked. -/
inductive OptionAnswer where
  | value (text : List Char)
  | failure (reply : Reply) (failed : reply.isOk = false)

/-- `AdbcConnectionGetOption`: what it returns, the buffer, and the length. -/
def getOption (answer : OptionAnswer) (buffer : List Char) : Reply × List Char × Nat :=
  match answer with
  | .value text =>
    -- the text, its terminator, and what was in the buffer behind them
    if text.length + 1 ≤ buffer.length then
      (.success, text ++ '\x00' :: buffer.drop (text.length + 1), text.length + 1)
    else (.success, buffer, text.length + 1)
  | .failure reply _ => (reply, buffer, buffer.length)

/-- The C string in a buffer, which ends in front of the first null character. -/
def cString (buffer : List Char) : List Char := buffer.takeWhile (· ≠ '\x00')

/-- A text behind its terminator is not part of the string. -/
theorem cString_terminated (text rest : List Char) :
    cString (text ++ '\x00' :: rest) = cString text := by
  induction text with
  | nil => rfl
  | cons c text ih =>
    by_cases hc : c = '\x00'
    · subst hc
      rfl
    · have hkept : ∀ t, cString (c :: t) = c :: cString t := fun t =>
        List.takeWhile_cons_of_pos (by simpa using hc)
      rw [List.cons_append, hkept, hkept, ih]

/-- A text without terminators is a string as it is. -/
theorem cString_eq_self {text : List Char} (h : '\x00' ∉ text) : cString text = text := by
  induction text with
  | nil => rfl
  | cons c text ih =>
    rw [List.mem_cons, not_or] at h
    have hc : c ≠ '\x00' := fun he => h.1 he.symm
    have hrest : List.takeWhile (· ≠ '\x00') text = text := ih h.2
    rw [cString, List.takeWhile_cons_of_pos (by simpa using hc), hrest]

/-- A buffer of zeros is the empty string. -/
@[simp] theorem cString_zeros (n : Nat) : cString (List.replicate n '\x00') = [] := by
  cases n <;> rfl

/-- **What the buffer holds after the call**: the value, if it fits. -/
theorem cString_getOption (text : List Char) (n : Nat) :
    cString (getOption (.value text) (List.replicate n '\x00')).2.1 =
      if text.length + 1 ≤ n then cString text else [] := by
  simp only [getOption, List.length_replicate]
  split
  · exact cString_terminated text _
  · exact cString_zeros n

theorem getOption_length (text buffer : List Char) :
    (getOption (.value text) buffer).2.2 = text.length + 1 := by
  simp only [getOption]
  split <;> rfl

theorem getOption_status (text buffer : List Char) :
    (getOption (.value text) buffer).1 = .success := by
  simp only [getOption]
  split <;> rfl

/-! ## Connections lent for a call -/

namespace AdbcConnectionPool
variable {ε α : Type}

/-- A call on the connection of a handle that is destroyed when the call has returned or
thrown. -/
def lend (pool : AdbcConnectionPool) (opening : Except ε Connection)
    (call : Connection → Except ε α) : Except ε α × AdbcConnectionPool :=
  match pool.getConnection opening with
  | (.error e, pool') => (.error e, pool')
  | (.ok handle, pool') => (call handle.connection, handle.destroy pool')

/-- The pool has an idle connection or may open one. -/
def Lends (pool : AdbcConnectionPool) (opening : Except ε Connection)
    (connection : Connection) : Prop :=
  pool.connections.getLast? = some connection ∨
    pool.connections = [] ∧ opening = .ok connection

/-- **What a loan leaves**: the pool as it was, or with the connection that was opened for
it; nothing, if none could be opened. -/
theorem lend_cases (pool : AdbcConnectionPool) (opening : Except ε Connection)
    (call : Connection → Except ε α) :
    (∃ c, pool.Lends opening c ∧ ∃ pool', pool.lend opening call = (call c, pool') ∧
      ((pool.connections ≠ [] ∨ pool.activeConnections = pool.maxConnections) ∧ pool' = pool ∨
        pool.connections = [] ∧ pool.activeConnections ≠ pool.maxConnections ∧
          pool' = { pool with connections := [c] })) ∨
    (∃ e, pool.connections = [] ∧ opening = .error e ∧
      pool.lend opening call = (.error e, pool)) := by
  have hcount : pool.activeConnections + 1 - 1 = pool.activeConnections := by
    rw [UInt64.add_sub_cancel]
  rcases getConnection_cases opening pool with
    ⟨idle, c, hidle, he⟩ | ⟨c, hopening, hidle, hmax, he⟩ | ⟨c, hopening, hidle, hmax, he⟩ |
      ⟨e, hopening, he⟩
  · refine .inl ⟨c, .inl (by simp [hidle]), _, by rw [lend, he], .inl ⟨.inl (by simp [hidle]), ?_⟩⟩
    obtain ⟨active, limit, connections⟩ := pool
    obtain rfl : connections = idle ++ [c] := hidle
    simp only [AdbcPooledConnection.destroy, Bool.false_eq_true, if_false, returnConnection]
    rw [hcount]
  · refine .inl ⟨c, .inr ⟨hidle, hopening⟩, pool, ?_, .inl ⟨.inr hmax, rfl⟩⟩
    rw [lend, he]
    rfl
  · refine .inl ⟨c, .inr ⟨hidle, hopening⟩, _, by rw [lend, he], .inr ⟨hidle, hmax, ?_⟩⟩
    simp only [AdbcPooledConnection.destroy, Bool.false_eq_true, if_false, returnConnection]
    rw [hcount, hidle]
    rfl
  · by_cases hidle : pool.connections = []
    · exact .inr ⟨e, hidle, hopening, by rw [lend, he]⟩
    · simp [getConnection, hidle] at he

end AdbcConnectionPool
end AdbcClient
