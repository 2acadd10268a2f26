import AdbcClient.DriverCalls
import AdbcClient.InsertBuffer

/-!
# Settings

The extension registers four options (`adbc_extension.cpp`).  The two sizes have a callback
that refuses values that are not positive, and are read without another test: the buffer
size by every insert (`adbc_insert.cpp`), the pool size by every `ATTACH`, where it becomes
an `idx_t` (`adbc_catalog.hpp`).

`settings_positive` is what the callbacks come to over a session, `Positive.poolLimit` and
`buffer_within_setting` what `ATTACH` and an insert have of it.
-/
namespace AdbcClient
open Runs

/-- The options that the extension registers, with their values in a session. -/
structure Settings where
  mixReadsWrites : Bool
  materializeInsertRows : Bool
  insertBufferSize : Int64
  connectionPoolSize : Int64
  deriving DecidableEq, Repr

namespace Settings

/-- The values that the options are registered with. -/
def defaults : Settings := ⟨false, false, 1000, 50⟩

/-- `SET` for the four options, and `RESET` of all of them. -/
inductive Command where
  | mixReadsWrites (value : Bool)
  | materializeInsertRows (value : Bool)
  | insertBufferSize (value : Int64)
  | connectionPoolSize (value : Int64)
  | reset
  deriving DecidableEq, Repr

/-- The callback of a size: it refuses a value that is not positive. -/
def checkSize (option : String) (value : Int64) : Except Exception Unit :=
  if value ≤ 0 then .error (.invalidInput (option ++ " must be greater than zero!")) else .ok ()

/-- What a command does: a value that the callback refuses is not set. -/
def execute (s : Settings) : Command → Except Exception Settings
  | .mixReadsWrites value => .ok { s with mixReadsWrites := value }
  | .materializeInsertRows value => .ok { s with materializeInsertRows := value }
  | .insertBufferSize value =>
    (checkSize "adbc_insert_buffer_size" value).map fun _ => { s with insertBufferSize := value }
  | .connectionPoolSize value =>
    (checkSize "adbc_connection_pool_size" value).map fun _ =>
      { s with connectionPoolSize := value }
  | .reset => .ok defaults

/-- The settings after a command, also one that throws. -/
def next (s : Settings) (command : Command) : Settings :=
  match s.execute command with
  | .ok s' => s'
  | .error _ => s

/-- The limit of the pool that `ATTACH` makes. -/
def poolLimit (s : Settings) : UInt64 := s.connectionPoolSize.toUInt64

/-- What an insert reads of the options when it starts. -/
def forInsert (s : Settings) : InsertSettings where
  materializeInput := s.materializeInsertRows
  maxChunks := s.insertBufferSize.toInt

/-- **The sizes are positive**, as their callbacks see to. -/
structure Positive (s : Settings) : Prop where
  insertBufferSize : 0 < s.insertBufferSize
  connectionPoolSize : 0 < s.connectionPoolSize

theorem positive_defaults : Positive defaults := ⟨by decide, by decide⟩

/-- A size that the callback accepts is positive. -/
theorem checkSize_ok {option : String} {value : Int64} {u : Unit}
    (h : checkSize option value = .ok u) : 0 < value := by
  rw [checkSize] at h
  split at h
  · cases h
  · rename_i hvalue
    exact Int64.not_le.mp hvalue

/-- A size is set only if the callback accepts it. -/
theorem of_map_checkSize {option : String} {value : Int64} {s s' : Settings}
    (h : (checkSize option value).map (fun _ => s) = .ok s') : 0 < value ∧ s' = s := by
  cases hcheck : checkSize option value with
  | error e =>
    rw [hcheck] at h
    cases h
  | ok u =>
    rw [hcheck] at h
    exact ⟨checkSize_ok hcheck, (Except.ok.inj h).symm⟩

/-- **One command** keeps the sizes positive, whether it is accepted or refused. -/
theorem Positive.next {s : Settings} (hs : Positive s) (command : Command) :
    Positive (s.next command) := by
  rw [Settings.next]
  split
  · rename_i s' hs'
    cases command with
    | mixReadsWrites value =>
      cases hs'
      exact ⟨hs.insertBufferSize, hs.connectionPoolSize⟩
    | materializeInsertRows value =>
      cases hs'
      exact ⟨hs.insertBufferSize, hs.connectionPoolSize⟩
    | insertBufferSize value =>
      obtain ⟨hvalue, rfl⟩ := of_map_checkSize hs'
      exact ⟨hvalue, hs.connectionPoolSize⟩
    | connectionPoolSize value =>
      obtain ⟨hvalue, rfl⟩ := of_map_checkSize hs'
      exact ⟨hs.insertBufferSize, hvalue⟩
    | reset =>
      cases hs'
      exact positive_defaults
  · exact hs

/-- **In every session the sizes are positive.** -/
theorem settings_positive (commands : List Command) : Positive (run next defaults commands) :=
  run_invariant next (fun _ command _ hs => hs.next command) positive_defaults

/-- The limit is the setting, not a wrapped one. -/
theorem Positive.poolLimit {s : Settings} (hs : Positive s) :
    (s.poolLimit.toNat : Int) = s.connectionPoolSize.toInt ∧ 1 ≤ s.poolLimit.toNat := by
  have hpos : 0 < s.connectionPoolSize.toInt := Int64.lt_iff_toInt_lt.mp hs.connectionPoolSize
  have hnonneg : 0 ≤ s.connectionPoolSize := Int64.le_of_lt hs.connectionPoolSize
  have hnat : s.poolLimit.toNat = s.connectionPoolSize.toInt.toNat :=
    Int64.toNat_toUInt64_of_le hnonneg
  omega

theorem Positive.forInsert {s : Settings} (hs : Positive s) : 1 ≤ s.forInsert.maxChunks :=
  Int64.lt_iff_toInt_lt.mp hs.insertBufferSize

/-- **The buffer of an insert** never holds more chunks than the setting of the session says,
whatever was set before, reset or refused, as long as no `Sink` gets past its wait while the buffer
is full. -/
theorem buffer_within_setting {Row : Type} (D : ColumnDataCollection Row)
    (commands : List Command)
    (hmaterialize : (run next defaults commands).materializeInsertRows = false)
    {c : Configuration D}
    (h : ((insertSystem D (run next defaults commands).forInsert).restrict
      RespectsFull).Reachable c) :
    (c.appended : Int) ≤ (run next defaults commands).insertBufferSize.toInt :=
  (bounded (settings_positive commands).forInsert hmaterialize h).bound

/-- A size of 0 is refused after a size of 1 was set: the insert has room for one chunk, and holds
one. -/
theorem refused_size_within_setting :
    ∃ c, ((insertSystem (.dense Nat)
        (run next defaults [.insertBufferSize 1, .insertBufferSize 0]).forInsert).restrict
      RespectsFull).Reachable c ∧ c.appended = 1 ∧
      (c.appended : Int) ≤
        (run next defaults [.insertBufferSize 1, .insertBufferSize 0]).insertBufferSize.toInt := by
  have start : ((insertSystem (.dense Nat)
      (run next defaults [.insertBufferSize 1, .insertBufferSize 0]).forInsert).restrict
    RespectsFull).Reachable (.initial _) := .initial rfl
  have respects : RespectsFull (.initial (.dense Nat)) (.sink ⟨[0], by decide⟩ false) :=
    fun hfull => Bool.noConfusion hfull
  have insert : Step (run next defaults [.insertBufferSize 1, .insertBufferSize 0]).forInsert
    (.initial (.dense Nat)) (.sink ⟨[0], by decide⟩ false) _ := .sink _ false rfl rfl
  have first := start.step ⟨respects, insert⟩
  exact ⟨_, first, rfl, buffer_within_setting _ _ rfl first⟩

end Settings
end AdbcClient
