import AdbcClient.Catalog
import AdbcClient.Settings

/-!
# Attaching a database

`ATTACH` makes a catalog (`adbc_storage.cpp`), whose constructor makes the pool, asks for the
name of the catalog that the connection is in, and lists the schemas (`adbc_catalog.hpp`,
`adbc_catalog.cpp`).

`FetchCatalogName` asks twice if the name does not fit into 4096 bytes: the first answer says
how long it is, and the second one is read into a buffer of that length.  A text is the list of
its bytes, so that its length is what the buffer has to hold.
`catalogName_kept_iff` says what this returns or throws if the name may change in between, and
`attach_one_connection` that the constructor opens one connection and gives it to the pool,
whatever else happens.
-/
namespace AdbcClient
open Runs

/-- What the constructor of the catalog can fail with. -/
inductive AttachFailure where
  | thrown (e : Exception)
  | listing (e : MetadataError)
  deriving DecidableEq, Repr

namespace AdbcCatalog

/-- The bytes of `stack_buffer`, into which the first call reads. -/
def stackBufferSize : Nat := 4096

/-- `FetchCatalogName`, on the connection that the pool lends: what the first and the second
call of `AdbcConnectionGetOption` find there are two answers. -/
def readCatalogName (first second : OptionAnswer) : Except Exception (List Char) :=
  let (reply, stackBuffer, length) := getOption first (List.replicate stackBufferSize '\x00')
  if reply.status = AdbcStatusCode.notFound then .ok []
  else
    match checkAdbc reply .io with
    | .error e => .error e
    | .ok () =>
      if length ≤ stackBufferSize then .ok (cString stackBuffer)
      else
        -- `make_unique<char[]>` clears the buffer
        let (reply, heapBuffer, _) := getOption second (List.replicate length '\x00')
        match checkAdbc reply .binder with
        | .error e => .error e
        | .ok () => .ok (cString heapBuffer)

/-- What a driver answers to the two calls on a connection. -/
structure CurrentCatalog where
  first : Connection → OptionAnswer
  second : Connection → OptionAnswer

/-- `FetchCatalogName`. -/
def fetchCatalogName (pool : AdbcConnectionPool) (opening : Except Exception Connection)
    (current : CurrentCatalog) : Except Exception (List Char) × AdbcConnectionPool :=
  pool.lend opening fun c => readCatalogName (current.first c) (current.second c)

/-- The constructor.  A connection is opened if a loan needs one; `opening₁` and `opening₂` are
what happens then. -/
def construct (settings : Settings) (opening₁ opening₂ : Except Exception Connection)
    (current : CurrentCatalog) (getObjects : Connection → GetObjects) :
    Except AttachFailure AdbcCatalog × AdbcConnectionPool :=
  let pool := AdbcConnectionPool.new settings.poolLimit
  match fetchCatalogName pool opening₁ current with
  | (.error e, pool') => (.error (.thrown e), pool')
  | (.ok name, pool') =>
    pool'.lend (opening₂.mapError .thrown) fun c =>
      (attach (getObjects c) (String.ofList name)).mapError .listing

/-! ## The name of the catalog -/

/-- **A name that is read twice, or once.**  A text that fits is what the first call returns;
of a longer one the second call returns what is there by then, and nothing if that does not
fit into the buffer for the first. -/
theorem readCatalogName_eq (text : List Char) (second : OptionAnswer) :
    readCatalogName (.value text) second =
      if text.length + 1 ≤ stackBufferSize then .ok (cString text)
      else
        match second with
        | .value text' => .ok (if text'.length ≤ text.length then cString text' else [])
        | .failure reply _ => .error (.binder reply.text) := by
  have hfirst := cString_getOption text stackBufferSize
  rw [readCatalogName]
  simp only [getOption_status, getOption_length]
  rw [if_neg (by decide), checkAdbc, if_pos Reply.isOk_success]
  by_cases hfits : text.length + 1 ≤ stackBufferSize
  · simp only [if_pos hfits] at hfirst ⊢
    rw [hfirst]
  · simp only [if_neg hfits]
    cases second with
    | value text' =>
      have hsecond := cString_getOption text' (text.length + 1)
      simp only [getOption_status, checkAdbc, if_pos Reply.isOk_success, hsecond,
        Nat.add_le_add_iff_right]
    | failure reply failed => simp [getOption, checkAdbc, failed]

/-- An option that the driver does not know, and one that it fails to read. -/
theorem readCatalogName_failure (reply : Reply) (failed : reply.isOk = false)
    (second : OptionAnswer) :
    readCatalogName (.failure reply failed) second =
      if reply.status = AdbcStatusCode.notFound then .ok [] else .error (.io reply.text) := by
  simp only [readCatalogName, getOption, checkAdbc, failed, Bool.false_eq_true, if_false]

/-- **When the name is the one that the first call found**: if it fits into the buffer on the
stack; a longer one if the second call finds the same string, and no longer text, or if both
are empty strings.  A name that has grown in between is taken for an empty one, and a second
call that fails is an exception of its own.  If the first call fails, there is no name, or an
exception of another kind. -/
theorem catalogName_kept_iff (text : List Char) (second : OptionAnswer) :
    (readCatalogName (.value text) second = .ok (cString text) ↔
      text.length < stackBufferSize ∨ ∃ text', second = .value text' ∧
        ((text'.length ≤ text.length ∧ cString text' = cString text) ∨
          (text.length < text'.length ∧ cString text = []))) ∧
    (∀ text', second = .value text' → stackBufferSize ≤ text.length →
      text.length < text'.length → readCatalogName (.value text) second = .ok []) ∧
    (∀ e, readCatalogName (.value text) second = .error e ↔
      stackBufferSize ≤ text.length ∧
        ∃ reply failed, second = .failure reply failed ∧ e = .binder reply.text) ∧
    ∀ reply failed, readCatalogName (.failure reply failed) second =
      if reply.status = AdbcStatusCode.notFound then .ok [] else .error (.io reply.text) := by
  refine ⟨?_, ?_, fun e => ?_, fun reply failed => readCatalogName_failure reply failed second⟩
  all_goals rw [readCatalogName_eq]
  · by_cases hfits : text.length + 1 ≤ stackBufferSize
    · rw [if_pos hfits]
      exact iff_of_true rfl (.inl hfits)
    · rw [if_neg hfits]
      have hlong : ¬ text.length < stackBufferSize := hfits
      cases second with
      | value text' =>
        simp only [Except.ok.injEq, hlong, false_or, OptionAnswer.value.injEq, exists_eq_left']
        by_cases hgrown : text'.length ≤ text.length
        · simp [hgrown, Nat.not_lt_of_le hgrown]
        · simp [hgrown, Nat.lt_of_not_le hgrown, eq_comm]
      | failure reply failed => simp [hlong]
  · rintro text' rfl hlong hgrown
    rw [if_neg (Nat.not_le_of_lt (Nat.lt_succ_of_le hlong))]
    simp only [if_neg (Nat.not_le_of_lt hgrown)]
  · by_cases hfits : text.length + 1 ≤ stackBufferSize
    · rw [if_pos hfits]
      exact iff_of_false (by simp) fun h => absurd hfits (Nat.not_le_of_lt (Nat.lt_succ_of_le h.1))
    · rw [if_neg hfits]
      have hlong : stackBufferSize ≤ text.length := Nat.le_of_lt_succ (Nat.lt_of_not_le hfits)
      cases second with
      | value text' => simp
      | failure reply failed =>
        constructor
        · intro h
          exact ⟨hlong, reply, failed, rfl, (Except.error.inj h).symm⟩
        · rintro ⟨-, _, _, hsame, rfl⟩
          cases hsame
          rfl

/-! ## The constructor -/

/-- The first loan of a pool opens the connection that it keeps. -/
theorem lend_first {ε α : Type} {limit : UInt64} (hlimit : 1 ≤ limit.toNat) (c : Connection)
    (call : Connection → Except ε α) :
    (AdbcConnectionPool.new limit).lend (.ok c) call = (call c, ⟨0, limit, [c]⟩) := by
  have hbelow : (0 : UInt64) ≠ limit := by
    rintro rfl
    exact absurd hlimit (by decide)
  rcases AdbcConnectionPool.lend_cases (AdbcConnectionPool.new limit) (.ok c) call with
    ⟨c', hlends, pool', he, hpool⟩ | ⟨e, _, hopening, _⟩
  · obtain rfl : c = c' := by
      rcases hlends with hidle | ⟨_, hopening⟩
      · cases hidle
      · exact Except.ok.inj hopening
    rcases hpool with ⟨hidle | hmax, _⟩ | ⟨_, _, rfl⟩
    · exact absurd rfl hidle
    · exact absurd hmax hbelow
    · exact he
  · cases hopening

/-- A later loan uses the idle connection again, and opens none. -/
theorem lend_again {ε α : Type} {limit : UInt64} (c : Connection)
    (opening : Except ε Connection) (call : Connection → Except ε α) :
    (⟨0, limit, [c]⟩ : AdbcConnectionPool).lend opening call = (call c, ⟨0, limit, [c]⟩) := by
  rcases AdbcConnectionPool.lend_cases ⟨0, limit, [c]⟩ opening call with
    ⟨c', hlends, pool', he, hpool⟩ | ⟨e, hidle, _⟩
  · obtain rfl : c = c' := by
      rcases hlends with hidle | ⟨hidle, _⟩
      · exact Option.some.inj hidle
      · cases hidle
    rcases hpool with ⟨_, rfl⟩ | ⟨hidle, _⟩
    · exact he
    · cases hidle
  · cases hidle

/-- **An `ATTACH` opens one connection**, at whatever point it fails after that.  The name of
the catalog and the schemas are read from it, and it is idle in the pool when the constructor
returns or throws; a connection that cannot be opened leaves the pool empty. -/
theorem attach_one_connection (commands : List Settings.Command)
    (opening₁ opening₂ : Except Exception Connection) (current : CurrentCatalog)
    (getObjects : Connection → GetObjects) :
    (∀ e, opening₁ = .error e →
      construct (run Settings.next .defaults commands) opening₁ opening₂ current getObjects =
        (.error (.thrown e), .new (run Settings.next .defaults commands).poolLimit)) ∧
    ∀ c, opening₁ = .ok c →
      construct (run Settings.next .defaults commands) opening₁ opening₂ current getObjects =
        (match readCatalogName (current.first c) (current.second c) with
          | .error e => .error (.thrown e)
          | .ok name => (attach (getObjects c) (String.ofList name)).mapError .listing,
        ⟨0, (run Settings.next .defaults commands).poolLimit, [c]⟩) := by
  have hlimit := (Settings.settings_positive commands).poolLimit.2
  refine ⟨?_, ?_⟩
  · rintro e rfl
    rcases AdbcConnectionPool.lend_cases
        (AdbcConnectionPool.new (run Settings.next .defaults commands).poolLimit) (.error e)
        (fun c => readCatalogName (current.first c) (current.second c)) with
      ⟨c, hlends, _⟩ | ⟨e', _, hopening, he⟩
    · rcases hlends with hidle | ⟨_, hopening⟩
      · cases hidle
      · cases hopening
    · obtain rfl := Except.error.inj hopening
      rw [construct, fetchCatalogName, he]
  · rintro c rfl
    rw [construct, fetchCatalogName, lend_first hlimit]
    cases hname : readCatalogName (current.first c) (current.second c) with
    | error e => rfl
    | ok name => exact lend_again c _ _

end AdbcCatalog
end AdbcClient
