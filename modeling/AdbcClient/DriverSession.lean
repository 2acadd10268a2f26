import AdbcClient.DriverManager
import AdbcClient.ObjectStore

/-!
# Connections and statements

An `AdbcConnection` has a database and a connection, each in a handle (`adbc_util.hpp`).  Its
constructor makes and initialises both; if a call fails, the handles are destroyed and an
exception is thrown, and an exception that leaves a call destroys them as well.  Statements are made on a connection, replaced by others, and destroyed
before it.

A `Session` is any number of connections and statements of the extension, and the steps that
the driver manager has taken for them.  `Sound` is its invariant: what is open is what the
handles own, apart from the blocks that the driver manager loses itself.
`session_legal` says so for every run and all drivers, and `driver_objects_released_once` what
has become of the objects of the drivers in the end.
-/
namespace AdbcClient
open Runs ObjectStore ResourceTree DriverManager

/-- `AdbcConnection`. -/
structure AdbcConnection where
  database : DatabaseHandle
  connection : ConnectionHandle

/-- What `private_data` points to before a database is initialised. -/
def DriverManager.DatabaseHandle.temporary : DatabaseHandle → Option (TempDatabase × Id)
  | .pending args temp => some (args, temp)
  | _ => none

/-- What `private_data` points to before a connection is initialised. -/
def DriverManager.ConnectionHandle.temporary : ConnectionHandle → Option (TempConnection × Id)
  | .pending args temp => some (args, temp)
  | _ => none

namespace AdbcConnection

/-- `~AdbcConnection`: the members are destroyed in the reverse order. -/
def destroy (D : Drivers) (t : Trace) (c : AdbcConnection) : Trace :=
  releaseDatabase D (releaseConnection D t c.connection) c.database

/-- An exception, with the members destroyed on the way out. -/
def throws (D : Drivers) (t : Trace) (exception : Exception) (c : AdbcConnection) :
    Except Exception AdbcConnection × Trace :=
  (.error exception, c.destroy D t)

/-- The constructor, which throws a `BinderException` for a call that fails. -/
def construct (D : Drivers) (t : Trace) (uri : List Char) :
    Except Exception AdbcConnection × Trace :=
  let (database, t) := adbcDatabaseNew t
  let (reply, database, t) := adbcDatabaseSetOption D t uriKey (cString uri) database
  if reply.isOk then
    let (reply, database) := adbcDriverManagerDatabaseSetLoadFlags loadFlagDefault database
    if reply.isOk then
      match adbcDatabaseInit D t database.temporary with
      | (.error what, database, t) => throws D t (.filesystem what) ⟨database, .zeroed⟩
      | (.ok reply, database, t) =>
        if reply.isOk then
          let (connection, t) := adbcConnectionNew t
          let (reply, connection, t) := adbcConnectionInit D t database connection.temporary
          if reply.isOk then (.ok ⟨database, connection⟩, t)
          else throws D t (.binder reply.text) ⟨database, connection⟩
        else throws D t (.binder reply.text) ⟨database, .zeroed⟩
    else throws D t (.binder reply.text) ⟨database, .zeroed⟩
  else throws D t (.binder reply.text) ⟨database, .zeroed⟩

/-- `MakeStatement`. -/
def makeStatement (D : Drivers) (t : Trace) (c : AdbcConnection) (queryText : List Char) :
    Except Exception StatementHandle × Trace :=
  let (reply, statement, t) := adbcStatementNew D t c.connection
  if reply.isOk then
    let (reply, t) := adbcStatementCall D t statement (.setSqlQuery (cString queryText))
    if reply.isOk then (.ok statement, t)
    else (.error (.binder reply.text), releaseStatement D t statement)
  else (.error (.binder reply.text), releaseStatement D t statement)

/-- The constructor has succeeded: both handles have what the driver has made. -/
def Ready (c : AdbcConnection) (driver : LoadedDriver) (database connection : Id) : Prop :=
  c = ⟨.ready driver database, .ready driver connection⟩

/-- What the driver has made for the connection. -/
def made (c : AdbcConnection) : Id :=
  match c.connection with
  | .ready _ connection => connection
  | _ => 0

/-- What a connection owns: what its two handles own. -/
def resources (c : AdbcConnection) : List (Id × Option Id) :=
  match c.database with
  | .ready driver database =>
    c.connection.resources database ++ (DatabaseHandle.ready driver database).resources
  | database => database.resources

end AdbcConnection

section Functions
variable {D : Drivers} {t : Trace} {F : List (Id × Option Id)}

theorem grounded_database (database : DatabaseHandle) (hF : Grounded F) :
    Grounded (database.resources ++ F) := by
  cases database with
  | zeroed => exact hF
  | pending args temp => exact hF.cons (by simp)
  | ready driver database => exact (hF.cons (by simp)).cons (by simp)

/-- **Destroying** a connection releases what it owns, the connection before its database. -/
theorem AdbcConnection.destroy_held {driver : LoadedDriver} {database : Id}
    {connection : ConnectionHandle}
    (h : Held t (connection.resources database ++
      ((DatabaseHandle.ready driver database).resources ++ F)))
    (hdriver : ∀ driver' c, connection = .ready driver' c → driver' = driver) (hF : Grounded F) :
    Held (AdbcConnection.destroy D t ⟨.ready driver database, connection⟩) F := by
  have hconnection := releaseConnection_held (D := D) h (grounded_database _ hF)
    (fun driver' c hc => by
      rw [hdriver driver' c hc]
      simp [DatabaseHandle.resources])
  exact releaseDatabase_held hconnection hF

/-- What the database is initialised with: the text as the location, and the flags. -/
def AdbcConnection.args (uri : List Char) : TempDatabase :=
  { TempDatabase.new.setOption uriKey (cString uri) with loadFlags := loadFlagDefault }

/-- The calls before the database is initialised succeed. -/
theorem AdbcConnection.construct_eq (uri : List Char) :
    construct D t uri =
      match adbcDatabaseInit D (note t (.new .tempDatabase)) (some (args uri, t.length)) with
      | (.error what, database, t) => throws D t (.filesystem what) ⟨database, .zeroed⟩
      | (.ok reply, database, t) =>
        if reply.isOk then
          let (reply, connection, t) := adbcConnectionInit D (note t (.new .tempConnection))
            database (some (⟨∅, ∅, ∅, ∅⟩, t.length))
          if reply.isOk then (.ok ⟨database, connection⟩, t)
          else throws D t (.binder reply.text) ⟨database, connection⟩
        else throws D t (.binder reply.text) ⟨database, .zeroed⟩ := by
  rw [construct]
  rfl

/-- **What the constructor leaves**: a connection that is ready, or nothing. -/
theorem AdbcConnection.construct_held (h : Held t F) (hF : Grounded F) (uri : List Char) :
    match construct D t uri with
    | (.ok c, t') => (∃ driver database connection, c.Ready driver database connection) ∧
        Held t' (c.resources ++ F)
    | (.error _, t') => Held t' F := by
  have hnew : Held (note t (.new .tempDatabase)) ((t.length, none) :: F) :=
    h.step_opens _ _ [] none rfl rfl (by simp) (by simp)
  have hinit := adbcDatabaseInit_held (D := D) hnew hF (args uri)
  rw [construct_eq]
  generalize adbcDatabaseInit D _ _ = init at hinit ⊢
  obtain ⟨what | reply, database, t₁⟩ := init
  · exact releaseDatabase_held hinit.held hF
  obtain ⟨hheld, hready⟩ := hinit
  simp only at hheld hready ⊢
  by_cases hok : reply.isOk
  · rw [if_pos hok]
    obtain ⟨driver, db, rfl⟩ := hready reply rfl hok
    have hdriver : driver.block ∈ ids ((DatabaseHandle.ready driver db).resources ++ F) := by
      simp [DatabaseHandle.resources]
    have hdatabase : db ∈ ids ((DatabaseHandle.ready driver db).resources ++ F) := by
      simp [DatabaseHandle.resources]
    have htemp : Held (note t₁ (.new .tempConnection))
        ((t₁.length, none) :: ((DatabaseHandle.ready driver db).resources ++ F)) :=
      hheld.step_opens _ _ [] none rfl rfl (by simp) (by simp)
    have hconnect := adbcConnectionInit_held (D := D) htemp
      (grounded_database (.ready driver db) hF) hdriver hdatabase ⟨∅, ∅, ∅, ∅⟩
    generalize adbcConnectionInit D _ _ _ = init at hconnect ⊢
    obtain ⟨reply, connection, t₂⟩ := init
    obtain ⟨hheld, hsame, hready⟩ := hconnect
    simp only at hheld hsame hready ⊢
    by_cases hok : reply.isOk
    · rw [if_pos hok]
      obtain ⟨c, rfl⟩ := hready hok
      exact ⟨⟨driver, db, c, rfl⟩, hheld⟩
    · rw [if_neg hok]
      exact destroy_held hheld hsame hF
  · rw [if_neg hok]
    exact releaseDatabase_held hheld hF

/-- **What `MakeStatement` leaves**: a statement of the driver, or nothing. -/
theorem AdbcConnection.makeStatement_held (h : Held t F) (hF : Grounded F)
    {c : AdbcConnection} {driver : LoadedDriver} {database connection : Id}
    (hc : c.Ready driver database connection) (hdriver : driver.block ∈ ids F)
    (hconnection : connection ∈ ids F) (queryText : List Char) :
    match makeStatement D t c queryText with
    | (.ok statement, t') => (∃ id, statement = .ready driver id) ∧
        Held t' (statement.resources connection ++ F)
    | (.error _, t') => Held t' F := by
  obtain rfl := hc
  have hnew := adbcStatementNew_held (D := D) h hdriver hconnection
  rw [makeStatement]
  generalize adbcStatementNew D _ _ = made at hnew ⊢
  obtain ⟨reply, statement, t₁⟩ := made
  obtain ⟨hheld, hready, hrefused⟩ := hnew
  simp only at hheld hready hrefused ⊢
  by_cases hok : reply.isOk
  · rw [if_pos hok]
    obtain ⟨id, rfl⟩ := hready hok
    have hset := adbcStatementCall_held (D := D) hheld (List.mem_cons_of_mem _ hdriver)
      List.mem_cons_self (.setSqlQuery (cString queryText))
    generalize adbcStatementCall D _ _ _ = called at hset ⊢
    obtain ⟨reply, t₂⟩ := called
    simp only at hset ⊢
    by_cases hok : reply.isOk
    · rw [if_pos hok]
      exact ⟨⟨id, rfl⟩, hset⟩
    · rw [if_neg hok]
      have hset' : Held t₂ ((StatementHandle.ready driver id).resources connection ++ F) := hset
      refine releaseStatement_held hset' hF fun driver' s hs => ?_
      cases hs
      exact hdriver
  · rw [if_neg hok]
    obtain rfl := hrefused (by simpa using hok)
    exact hheld

end Functions

/-! ## Sessions -/

namespace DriverSession

/-- A statement: its handle, the address of the connection that it was made on, and what the
driver has made for that. -/
structure Statement where
  address : Nat
  connection : Id
  handle : StatementHandle

/-- The connections and the statements that exist, by their addresses. -/
structure Session where
  connections : AList fun _ : Nat => AdbcConnection
  statements : AList fun _ : Nat => Statement
  trace : Trace

/-- What the extension does.  An insert makes a statement without a text. -/
inductive Operation where
  | construct (k : Nat) (uri : List Char)
  | connectionCall (k : Nat) (function : ConnectionFunction)
  | destroy (k : Nat)
  | makeStatement (s k : Nat) (queryText : List Char)
  | newStatement (s k : Nat)
  | resetStatement (s : Nat) (queryText : List Char)
  | statementCall (s : Nat) (function : StatementFunction)
  | destroyStatement (s : Nat)

/-- The session in which nothing exists and nothing has been called. -/
def start : Session := ⟨∅, ∅, []⟩

/-- What an operation does.  One on an object that does not exist does nothing. -/
def next (D : Drivers) (s : Session) : Operation → Session
  | .construct k uri =>
    match AdbcConnection.construct D s.trace uri with
    | (.ok c, t) => { s with connections := s.connections.insert k c, trace := t }
    | (.error _, t) => { s with trace := t }
  | .connectionCall k function =>
    match s.connections.lookup k with
    | none => s
    | some c => { s with trace := (adbcConnectionCall D s.trace c.connection function).2 }
  | .destroy k =>
    match s.connections.lookup k with
    | none => s
    | some c => { s with connections := s.connections.erase k, trace := c.destroy D s.trace }
  | .makeStatement a k queryText =>
    match s.connections.lookup k with
    | none => s
    | some c =>
      match c.makeStatement D s.trace queryText with
      | (.ok handle, t) =>
        { s with statements := s.statements.insert a ⟨k, c.made, handle⟩, trace := t }
      | (.error _, t) => { s with trace := t }
  | .newStatement a k =>
    match s.connections.lookup k with
    | none => s
    | some c =>
      let (reply, handle, t) := adbcStatementNew D s.trace c.connection
      if reply.isOk then
        { s with statements := s.statements.insert a ⟨k, c.made, handle⟩, trace := t }
      else { s with trace := releaseStatement D t handle }
  | .resetStatement a queryText =>
    match s.statements.lookup a with
    | none => s
    | some statement =>
      match s.connections.lookup statement.address with
      | none => s
      | some c =>
        match c.makeStatement D s.trace queryText with
        | (.ok handle, t) =>
          -- the move assignment releases the old statement after the new one has been made
          { s with
            statements := s.statements.insert a ⟨statement.address, c.made, handle⟩
            trace := releaseStatement D t statement.handle }
        | (.error _, t) => { s with trace := t }
  | .statementCall a function =>
    match s.statements.lookup a with
    | none => s
    | some statement =>
      { s with trace := (adbcStatementCall D s.trace statement.handle function).2 }
  | .destroyStatement a =>
    match s.statements.lookup a with
    | none => s
    | some statement =>
      { s with
        statements := s.statements.erase a
        trace := releaseStatement D s.trace statement.handle }

/-- Objects are used while they exist, and statements are destroyed before the connection that
they were made on. -/
def Admissible (s : Session) : Operation → Prop
  | .construct k _ => k ∉ s.connections
  | .connectionCall k _ => k ∈ s.connections
  | .destroy k => k ∈ s.connections ∧ ∀ x ∈ s.statements.entries, x.2.address ≠ k
  | .makeStatement a k _ | .newStatement a k => a ∉ s.statements ∧ k ∈ s.connections
  | .resetStatement a _ | .statementCall a _ | .destroyStatement a => a ∈ s.statements

instance (s : Session) (op : Operation) : Decidable (Admissible s op) :=
  match op with
  | .construct k _ => inferInstanceAs (Decidable (k ∉ s.connections))
  | .connectionCall k _ => inferInstanceAs (Decidable (k ∈ s.connections))
  | .destroy k => inferInstanceAs (Decidable (k ∈ s.connections ∧
      ∀ x ∈ s.statements.entries, x.2.address ≠ k))
  | .makeStatement a k _ | .newStatement a k =>
    inferInstanceAs (Decidable (a ∉ s.statements ∧ k ∈ s.connections))
  | .resetStatement a _ | .statementCall a _ | .destroyStatement a =>
    inferInstanceAs (Decidable (a ∈ s.statements))

/-- What a statement owns: what the driver has made for its handle. -/
def Statement.resources (statement : Statement) : List (Id × Option Id) :=
  statement.handle.resources statement.connection

/-- What some connections and statements own, the statements after the connections. -/
def owned (connections : AList fun _ : Nat => AdbcConnection)
    (statements : AList fun _ : Nat => Statement) : List (Id × Option Id) :=
  held AdbcConnection.resources connections ++ held Statement.resources statements

/-- Connections are ready, and statements are on connections. -/
structure Linked (connections : AList fun _ : Nat => AdbcConnection)
    (statements : AList fun _ : Nat => Statement) : Prop where
  ready : ∀ k c, connections.lookup k = some c →
    ∃ driver database connection, c.Ready driver database connection
  on : ∀ a statement, statements.lookup a = some statement → ∃ driver database id c,
    connections.lookup statement.address = some c ∧
      c.Ready driver database statement.connection ∧ statement.handle = .ready driver id

/-- **The invariant**: what is open is what the objects own. -/
structure Sound (s : Session) : Prop where
  linked : Linked s.connections s.statements
  held : Held s.trace (owned s.connections s.statements)

theorem sound_start : Sound start := ⟨⟨by simp [start], by simp [start]⟩, held_nil⟩

section Invariant
variable {D : Drivers} {s : Session} {connections : AList fun _ : Nat => AdbcConnection}
variable {statements : AList fun _ : Nat => Statement} {k : Nat} {c : AdbcConnection}
variable {driver : LoadedDriver} {database connection : Id}

/-- What a ready connection owns is among what is owned. -/
theorem mem_owned (statements : AList fun _ : Nat => Statement)
    (hk : connections.lookup k = some c) (hc : c.Ready driver database connection) :
    driver.block ∈ ids (owned connections statements) ∧
      database ∈ ids (owned connections statements) ∧
      connection ∈ ids (owned connections statements) := by
  obtain rfl := hc
  have hmem : ∀ x ∈ AdbcConnection.resources ⟨.ready driver database, .ready driver connection⟩,
      x.1 ∈ ids (owned connections statements) := by
    intro x hx
    rw [owned, ids, List.map_append]
    exact List.mem_append_left _ (List.mem_map_of_mem (mem_held.mpr ⟨k, _, hk, hx⟩))
  exact ⟨hmem (driver.block, none) (by simp [AdbcConnection.resources, DatabaseHandle.resources]),
    hmem (database, some driver.block)
      (by simp [AdbcConnection.resources, DatabaseHandle.resources]),
    hmem (connection, some database)
      (by simp [AdbcConnection.resources, ConnectionHandle.resources])⟩

theorem Linked.grounded (h : Linked connections statements) :
    Grounded (owned connections statements) := by
  intro x hx p hp
  rcases List.mem_append.mp hx with hx | hx
  · obtain ⟨k, c, hk, hx⟩ := mem_held.mp hx
    obtain ⟨driver, database, connection, hc⟩ := h.ready k c hk
    obtain ⟨hdriver, hdatabase, -⟩ := mem_owned statements hk hc
    obtain rfl := hc
    simp only [AdbcConnection.resources, ConnectionHandle.resources, DatabaseHandle.resources,
      List.cons_append, List.nil_append, List.mem_cons, List.not_mem_nil, or_false] at hx
    rcases hx with rfl | rfl | rfl
    · obtain rfl := Option.some.inj hp
      exact hdatabase
    · obtain rfl := Option.some.inj hp
      exact hdriver
    · cases hp
  · obtain ⟨a, statement, ha, hx⟩ := mem_held.mp hx
    obtain ⟨driver, database, id, c, hk, hc, hhandle⟩ := h.on a statement ha
    rw [Statement.resources, hhandle] at hx
    obtain rfl := List.mem_singleton.mp hx
    obtain rfl := Option.some.inj hp
    exact (mem_owned _ hk hc).2.2

/-! A connection or a statement more, or less. -/

theorem Linked.insert_connection (h : Linked connections statements) (hk : k ∉ connections)
    (hc : c.Ready driver database connection) : Linked (connections.insert k c) statements := by
  refine ⟨fun k' c' hk' => ?_, fun a statement ha => ?_⟩
  · by_cases he : k' = k
    · subst he
      obtain rfl : c = c' := Option.some.inj ((AList.lookup_insert _).symm.trans hk')
      exact ⟨driver, database, connection, hc⟩
    · rw [AList.lookup_insert_ne he] at hk'
      exact h.ready k' c' hk'
  · obtain ⟨driver', database', id, c', hk', hc', hhandle⟩ := h.on a statement ha
    refine ⟨driver', database', id, c', ?_, hc', hhandle⟩
    rwa [AList.lookup_insert_ne]
    rintro rfl
    exact hk (mem_of_lookup hk')

theorem Linked.erase_connection (h : Linked connections statements)
    (hunused : ∀ x ∈ statements.entries, x.2.address ≠ k) : Linked (connections.erase k) statements := by
  refine ⟨fun k' c' hk' => ?_, fun a statement ha => ?_⟩
  · by_cases he : k' = k
    · subst he
      rw [AList.lookup_erase] at hk'
      cases hk'
    · rw [AList.lookup_erase_ne he] at hk'
      exact h.ready k' c' hk'
  · obtain ⟨driver', database', id, c', hk', hrest⟩ := h.on a statement ha
    exact ⟨driver', database', id, c', (AList.lookup_erase_ne
      (hunused ⟨a, statement⟩ (AList.mem_lookup_iff.mp ha))).trans hk', hrest⟩

theorem Linked.insert_statement (h : Linked connections statements) {a : Nat}
    {statement : Statement} {id : Id} (hk : connections.lookup statement.address = some c)
    (hc : c.Ready driver database statement.connection)
    (hhandle : statement.handle = .ready driver id) :
    Linked connections (statements.insert a statement) := by
  refine ⟨h.ready, fun a' statement' ha' => ?_⟩
  by_cases he : a' = a
  · subst he
    obtain rfl : statement = statement' :=
      Option.some.inj ((AList.lookup_insert _).symm.trans ha')
    exact ⟨driver, database, id, c, hk, hc, hhandle⟩
  · rw [AList.lookup_insert_ne he] at ha'
    exact h.on a' statement' ha'

theorem Linked.erase_statement (h : Linked connections statements) (a : Nat) :
    Linked connections (statements.erase a) := by
  refine ⟨h.ready, fun a' statement' ha' => ?_⟩
  by_cases he : a' = a
  · subst he
    rw [AList.lookup_erase] at ha'
    cases ha'
  · rw [AList.lookup_erase_ne he] at ha'
    exact h.on a' statement' ha'

/-- What is owned, with one object in front. -/
theorem owned_erase_connection (hk : connections.lookup k = some c) :
    (owned connections statements).Perm
      (c.resources ++ owned (connections.erase k) statements) := by
  have hheld := (held_erase AdbcConnection.resources hk).append_right
    (held Statement.resources statements)
  rwa [List.append_assoc] at hheld

theorem owned_erase_statement {a : Nat} {statement : Statement}
    (ha : statements.lookup a = some statement) :
    (owned connections statements).Perm
      (statement.resources ++ owned connections (statements.erase a)) := by
  have hheld := (held_erase Statement.resources ha).append_left
    (held AdbcConnection.resources connections)
  refine hheld.trans ?_
  rw [owned, ← List.append_assoc, ← List.append_assoc]
  exact List.perm_append_comm.append_right _

theorem owned_insert_statement {a : Nat} (statement : Statement) (ha : a ∉ statements) :
    (statement.resources ++ owned connections statements).Perm
      (owned connections (statements.insert a statement)) := by
  rw [owned, owned, held_insert ha, ← List.append_assoc, ← List.append_assoc]
  exact List.perm_append_comm.append_right _

theorem owned_replace_statement {a : Nat} {old : Statement} (statement : Statement)
    (ha : statements.lookup a = some old) :
    (statement.resources ++ owned connections statements).Perm
      (old.resources ++ owned connections (statements.insert a statement)) := by
  have hfront : ∀ F G : List (Id × Option Id),
      (F ++ (held AdbcConnection.resources connections ++ G)).Perm
        (held AdbcConnection.resources connections ++ (F ++ G)) := by
    intro F G
    rw [← List.append_assoc, ← List.append_assoc]
    exact List.perm_append_comm.append_right _
  refine (hfront _ _).trans (List.Perm.trans ?_ (hfront _ _).symm)
  exact (held_replace Statement.resources ha).symm.append_left _

/-- A statement that is made goes to a new address, or to one whose statement is released. -/
theorem Sound.made (h : Sound s) {t : Trace} {a : Nat} {statement : Statement} {id : Id}
    (hk : s.connections.lookup statement.address = some c)
    (hc : c.Ready driver database statement.connection)
    (hhandle : statement.handle = .ready driver id) (ha : a ∉ s.statements)
    (hmade : Held t (statement.resources ++ owned s.connections s.statements)) :
    Sound { s with statements := s.statements.insert a statement, trace := t } := by
  exact ⟨h.linked.insert_statement hk hc hhandle, hmade.perm (owned_insert_statement _ ha)⟩

/-- A statement with a text is made, or refused and released again. -/
theorem Sound.makeStatement (h : Sound s) {a : Nat} (ha : a ∉ s.statements)
    (hk : s.connections.lookup k = some c) (queryText : List Char) :
    Sound (next D s (.makeStatement a k queryText)) := by
  obtain ⟨driver, database, connection, hc⟩ := h.linked.ready k c hk
  obtain ⟨hdriver, -, hconnection⟩ := mem_owned s.statements hk hc
  have hmake := AdbcConnection.makeStatement_held (D := D) h.held h.linked.grounded hc hdriver
    hconnection queryText
  rw [DriverSession.next, hk]
  simp only
  generalize c.makeStatement D s.trace queryText = result at hmake ⊢
  obtain ⟨failed | handle, t⟩ := result
  · exact ⟨h.linked, hmake⟩
  · obtain ⟨⟨id, hhandle⟩, hheld⟩ := hmake
    obtain rfl := hc
    exact h.made hk rfl hhandle ha hheld

/-- A statement without a text.  If the driver refuses it, nothing is left of it. -/
theorem Sound.newStatement (h : Sound s) {a : Nat} (ha : a ∉ s.statements)
    (hk : s.connections.lookup k = some c) : Sound (next D s (.newStatement a k)) := by
  obtain ⟨driver, database, connection, rfl⟩ := h.linked.ready k c hk
  obtain ⟨hdriver, -, hconnection⟩ := mem_owned s.statements hk rfl
  have hnew := adbcStatementNew_held (D := D) h.held hdriver hconnection
  rw [DriverSession.next, hk]
  simp only
  generalize adbcStatementNew D s.trace _ = result at hnew ⊢
  obtain ⟨reply, handle, t⟩ := result
  obtain ⟨hheld, hready, hrefused⟩ := hnew
  simp only at hheld hready hrefused ⊢
  by_cases hok : reply.isOk
  · rw [if_pos hok]
    obtain ⟨id, hhandle⟩ := hready hok
    exact h.made hk rfl hhandle ha hheld
  · rw [if_neg hok]
    obtain rfl := hrefused (by simpa using hok)
    exact ⟨h.linked, hheld⟩

/-- Another statement in the place of one that there is. -/
theorem Sound.resetStatement (h : Sound s) {a : Nat} {statement : Statement}
    (ha : s.statements.lookup a = some statement) (queryText : List Char) :
    Sound (next D s (.resetStatement a queryText)) := by
  obtain ⟨driver, database, old, c, hk, hc, hold⟩ := h.linked.on a statement ha
  obtain ⟨hdriver, -, hconnection⟩ := mem_owned s.statements hk hc
  have hmake := AdbcConnection.makeStatement_held (D := D) h.held h.linked.grounded hc hdriver
    hconnection queryText
  rw [DriverSession.next, ha]
  simp only
  rw [hk]
  simp only
  generalize c.makeStatement D s.trace queryText = result at hmake ⊢
  obtain ⟨failed | handle, t⟩ := result
  · exact ⟨h.linked, hmake⟩
  · obtain ⟨⟨id, hhandle⟩, hheld⟩ := hmake
    have hmade : c.made = statement.connection := by
      rw [hc]
      rfl
    rw [← hmade] at hc hheld
    have hlinked : Linked s.connections
        (s.statements.insert a ⟨statement.address, c.made, handle⟩) :=
      h.linked.insert_statement hk hc hhandle
    -- for a moment both statements are there, and then the old one is released
    have hreplaced := hheld.perm (owned_replace_statement ⟨statement.address, c.made, handle⟩ ha)
    refine ⟨hlinked, releaseStatement_held hreplaced hlinked.grounded fun driver' s hs => ?_⟩
    obtain ⟨rfl, -⟩ := StatementHandle.ready.inj (hold.symm.trans hs)
    exact (mem_owned _ hk hc).1

/-- **One operation** keeps the invariant, whatever the drivers reply to it. -/
theorem Sound.next (h : Sound s) {op : Operation} (hop : Admissible s op) :
    Sound (next D s op) := by
  cases op with
  | construct k uri =>
    have hconstruct := AdbcConnection.construct_held (D := D) h.held h.linked.grounded uri
    rw [DriverSession.next]
    generalize AdbcConnection.construct D s.trace uri = result at hconstruct ⊢
    obtain ⟨failed | c, t⟩ := result
    · exact ⟨h.linked, hconstruct⟩
    · obtain ⟨⟨driver, database, connection, hc⟩, hheld⟩ := hconstruct
      refine ⟨h.linked.insert_connection hop hc, hheld.perm ?_⟩
      rw [owned, owned, held_insert hop, List.append_assoc]
  | connectionCall k function =>
    obtain ⟨c, hk⟩ := exists_lookup hop
    obtain ⟨driver, database, connection, hc⟩ := h.linked.ready k c hk
    obtain ⟨hdriver, -, hconnection⟩ := mem_owned s.statements hk hc
    obtain rfl := hc
    rw [DriverSession.next, hk]
    exact ⟨h.linked, adbcConnectionCall_held h.held hdriver hconnection function⟩
  | destroy k =>
    obtain ⟨hk, hunused⟩ := hop
    obtain ⟨c, hk⟩ := exists_lookup hk
    obtain ⟨driver, database, connection, rfl⟩ := h.linked.ready k c hk
    have hlinked := h.linked.erase_connection hunused
    rw [DriverSession.next, hk]
    refine ⟨hlinked, AdbcConnection.destroy_held (h.held.perm (owned_erase_connection hk))
      (fun driver' c hc => ?_) hlinked.grounded⟩
    cases hc
    rfl
  | makeStatement a k queryText =>
    obtain ⟨ha, hk⟩ := hop
    obtain ⟨c, hk⟩ := exists_lookup hk
    exact h.makeStatement ha hk queryText
  | newStatement a k =>
    obtain ⟨ha, hk⟩ := hop
    obtain ⟨c, hk⟩ := exists_lookup hk
    exact h.newStatement ha hk
  | resetStatement a queryText =>
    obtain ⟨statement, ha⟩ := exists_lookup hop
    exact h.resetStatement ha queryText
  | statementCall a function =>
    obtain ⟨statement, ha⟩ := exists_lookup hop
    obtain ⟨driver, database, id, c, hk, hc, hhandle⟩ := h.linked.on a statement ha
    obtain ⟨hdriver, -, -⟩ := mem_owned s.statements hk hc
    have hid : id ∈ ids (owned s.connections s.statements) := by
      refine ((owned_erase_statement ha).map Prod.fst).mem_iff.mpr ?_
      simp [Statement.resources, StatementHandle.resources, hhandle]
    rw [DriverSession.next, ha]
    simp only
    rw [hhandle]
    exact ⟨h.linked, adbcStatementCall_held h.held hdriver hid function⟩
  | destroyStatement a =>
    obtain ⟨statement, ha⟩ := exists_lookup hop
    obtain ⟨driver, database, id, c, hk, hc, hhandle⟩ := h.linked.on a statement ha
    have hlinked := h.linked.erase_statement a
    rw [DriverSession.next, ha]
    refine ⟨hlinked, releaseStatement_held (h.held.perm (owned_erase_statement ha))
      hlinked.grounded fun driver' s hs => ?_⟩
    obtain ⟨rfl, -⟩ := StatementHandle.ready.inj (hhandle.symm.trans hs)
    exact (mem_owned _ hk hc).1

end Invariant

/-! ## Runs -/

variable (D : Drivers) {ops : List Operation}

theorem sound_run (hops : Meets (next D) Admissible start ops) :
    Sound (run (next D) start ops) :=
  hops.invariant (fun _ _ h hop => h.next hop) sound_start

/-- **In every session, and whatever the drivers reply**, nothing is used or released that is
not there, what depends on something else is released before it, and what is there is in a
handle.  The only other blocks are those that `Action.loses` counts: the options of a database
that a driver has refused to make, and both the options and the driver where an exception of the
file system has left the search for it. -/
theorem session_legal (hops : Meets (next D) Admissible start ops) :
    Legal (events (run (next D) start ops).trace) ∧
      ∃ lost : List Id,
        (registry (events (run (next D) start ops).trace)).live.Perm
          (owned (run (next D) start ops).connections (run (next D) start ops).statements ++
            unowned lost) ∧
        lost.length = lostBlocks (run (next D) start ops).trace := by
  obtain ⟨lost, hlost, hcount⟩ := (sound_run D hops).held
  exact ⟨hlost.legal, lost, hlost.live, hcount⟩

/-- Without connections nothing is owned, as every statement is on a connection. -/
theorem owned_eq_nil {s : Session} (h : Sound s) (hnone : s.connections = ∅) :
    owned s.connections s.statements = [] := by
  have hstatements : held Statement.resources s.statements = [] := by
    refine List.eq_nil_iff_forall_not_mem.mpr fun x hx => ?_
    obtain ⟨a, statement, ha, -⟩ := mem_held.mp hx
    obtain ⟨driver, database, id, c, hk, -⟩ := h.linked.on a statement ha
    rw [hnone] at hk
    cases hk
  rw [owned, hstatements, hnone]
  rfl

/-- **What a driver has made is released** when the connections have been destroyed: once,
after everything that was made on it, and it is not used after that. -/
theorem driver_objects_released_once (hops : Meets (next D) Admissible start ops)
    (hnone : (run (next D) start ops).connections = ∅) {r parent : Id}
    (hr : .opened r (some parent) ∈ events (run (next D) start ops).trace) :
    ∃ before after,
      events (run (next D) start ops).trace = before ++ .closed r :: after ∧
      .opened r (some parent) ∈ before ∧ .closed r ∉ before ∧
      (∀ child, .opened child (some r) ∈ before → .closed child ∈ before) ∧
      .used r ∉ after ∧ .closed r ∉ after ∧ ∀ child, .opened child (some r) ∉ after := by
  have hsound := sound_run D hops
  obtain ⟨lost, hlost, -⟩ := hsound.held
  rw [owned_eq_nil hsound hnone, List.nil_append] at hlost
  have hclosed : .closed r ∈ events (run (next D) start ops).trace := by
    rcases opened_cases hr with hlive | hclosed
    · obtain ⟨block, -, hblock⟩ := List.mem_map.mp (hlost.live.mem_iff.mp hlive)
      cases hblock
    · exact hclosed
  obtain ⟨before, after, hsplit⟩ := List.append_of_mem hclosed
  have hlegal := hlost.legal
  rw [hsplit] at hlegal hr
  obtain ⟨hused, hagain, hopened⟩ := hlegal.not_after
  refine ⟨before, after, hsplit, ?_, hlegal.not_before,
    fun child hchild => hlegal.children_first hchild, hused, hagain, fun child hchild => (hopened child _ hchild).2 rfl⟩
  rcases List.mem_append.mp hr with hr | hr
  · exact hr
  · rcases List.mem_cons.mp hr with he | hr
    · cases he
    · exact absurd rfl (hopened r _ hr).1

/-- A driver for which everything succeeds, on a computer without profiles. -/
def agreeable : Drivers where
  profileProvider _ _ := .error recursiveProfile
  getenv _ := none
  answer _ _ := .success
  searchThrows _ _ := none
  releasable _ := true
  order := id
  order_perm options := .refl options

end DriverSession
end AdbcClient
