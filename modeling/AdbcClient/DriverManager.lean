import AdbcClient.DriverOptions
import AdbcClient.RemoteSchema
import AdbcClient.ResourceTree

/-!
# The driver manager

The driver manager sits between the extension and the drivers (`adbc_driver_manager_api.cpp`).
Until a database or a connection is initialised it is a temporary block with the options that
were set; after that, the calls on it go to the driver that was loaded for the database.  A
call that fails takes back what was done before it.

A `Trace` is every step of a run: a block that is allocated or freed, a call to a driver with its
reply, and a search for a driver that is left by an exception of the file system.  `Action.events` says what a step does with the blocks and with the objects of
drivers, and the lemmas that end in `_owned` what each function leaves open.  The drivers may
reply to any call as they like.
-/
namespace AdbcClient
namespace DriverManager
open ResourceTree

/-- A block or an object of a driver: the number of the step that made it. -/
abbrev Id := Nat

/-- What the driver manager allocates: for a database, a connection, or a driver. -/
inductive Block where
  | tempDatabase
  | adbcDriver
  | tempConnection
  deriving DecidableEq, Repr

/-- An option of a database or a connection with its value, of one of the four types. -/
inductive OptionValue where
  | text (key value : List Char)
  | bytes (key value : List Char)
  | int (key : List Char) (value : Int)
  | double (key : List Char) (value : Double)

/-- The arguments of `AdbcLoadDriverFromInitFunc` or of `AdbcFindLoadDriver`. -/
inductive DriverSource where
  | initFunc (address : Nat)
  | find (driver : List Char) (entrypoint : Option (List Char)) (loadFlags : Nat)
      (additionalPaths : Option (List Char))

/-- The functions of a connection that the extension calls. -/
inductive ConnectionFunction where
  | getObjects
  | getStatistics
  | getOption (key : List Char)

/-- The error of a call without a connection. -/
def ConnectionFunction.refused : ConnectionFunction → Reply
  | getObjects => .managerError .invalidState
      "AdbcConnectionGetObjects: must call AdbcConnectionNew first"
  | getStatistics => .managerError .invalidState
      "AdbcConnectionGetStatistics: must call AdbcConnectionNew first"
  | getOption _ => .managerError .invalidState
      "AdbcConnectionGetOption: must call AdbcConnectionNew first"

/-- The arrays of a stream that is bound to a statement: it ends at once, or there is one for
each chunk of rows that an insert has buffered. -/
inductive IngestArrays where
  | none
  | buffered
  deriving DecidableEq, Repr

/-- A stream that is bound to a statement: the columns of its schema, and its arrays. -/
structure IngestStream where
  columnTypes : List LogicalType
  columnNames : List String
  arrays : IngestArrays
  deriving DecidableEq, Repr

/-- The functions of a statement that the extension calls. -/
inductive StatementFunction where
  | setSqlQuery (query : List Char)
  | setOption (key value : List Char)
  | bindStream (stream : IngestStream)
  | executeSchema
  | executeQuery

/-- The error of a call without a statement. -/
def StatementFunction.refused : StatementFunction → Reply
  | setSqlQuery _ => .managerError .invalidState
      "AdbcStatementSetSqlQuery: must call AdbcStatementNew first"
  | setOption _ _ => .managerError .invalidState
      "AdbcStatementSetOption: must call AdbcStatementNew first"
  | bindStream _ => .managerError .invalidState
      "AdbcStatementBindStream: must call AdbcStatementNew first"
  | executeSchema => .managerError .invalidState
      "AdbcStatementExecuteSchema: must call AdbcStatementNew first"
  | executeQuery => .managerError .invalidState
      "AdbcStatementExecuteQuery: must call AdbcStatementNew first"

/-- A step.  `loadThrown` is a search for a driver that an exception of the file system has left
before it could return.  A connection is made through the database whose driver it gets; the driver is
called with a statement that it has refused to make as well. -/
inductive Action where
  | new (block : Block)
  | delete (block : Id)
  | load (driver : Id) (source : DriverSource)
  | loadThrown (driver : Id) (source : DriverSource)
  | release (driver : Id)
  | databaseNew (driver : Id)
  | databaseSetOption (driver database : Id) (option : OptionValue)
  | databaseInit (driver database : Id)
  | databaseRelease (driver database : Id)
  | connectionNew (driver database : Id)
  | connectionSetOption (driver connection : Id) (option : OptionValue)
  | connectionInit (driver connection database : Id)
  | connectionCall (driver connection : Id) (function : ConnectionFunction)
  | connectionRelease (driver connection : Id)
  | statementNew (driver connection : Id)
  | statementCall (driver : Id) (statement : Option Id) (function : StatementFunction)
  | statementRelease (driver statement : Id)

/-- The steps of a run, with the replies. -/
abbrev Trace := List (Action × Reply)

/-- What a step does, if it is the one with this number.  A driver makes an object if it says
so, and is done with one that is released, whatever it says. -/
def Action.events (i : Id) (reply : Reply) : Action → List (Event Id)
  | .new _ => [.opened i none]
  | .delete block => [.closed block]
  | .load driver _ | .loadThrown driver _ | .release driver => [.used driver]
  | .databaseNew driver => .used driver :: if reply.isOk then [.opened i (some driver)] else []
  | .databaseSetOption driver database _ | .databaseInit driver database =>
    [.used driver, .used database]
  | .databaseRelease driver database => [.used driver, .closed database]
  | .connectionNew driver database =>
    .used driver :: if reply.isOk then [.opened i (some database)] else []
  | .connectionSetOption driver connection _ | .connectionCall driver connection _ =>
    [.used driver, .used connection]
  | .connectionInit driver connection database => [.used driver, .used connection, .used database]
  | .connectionRelease driver connection => [.used driver, .closed connection]
  | .statementNew driver connection =>
    .used driver :: .used connection :: if reply.isOk then [.opened i (some connection)] else []
  | .statementCall driver statement _ => .used driver :: statement.toList.map .used
  | .statementRelease driver statement => [.used driver, .closed statement]

/-- What a run does with resources, step by step. -/
def events (t : Trace) : List (Event Id) := t.zipIdx.flatMap fun x => x.1.1.events x.2 x.1.2

/-- What the driver manager depends on: the replies of the drivers to everything that has
happened, the exceptions that leave a search for a driver, whether a driver that was loaded has a
`release`, profiles and the environment, and the order in which a hash table is gone through. -/
structure Drivers extends Surroundings where
  answer : Trace → Action → Reply
  searchThrows : Trace → DriverSource → Option String
  releasable : Trace → Bool
  order : {β : Type} → List (List Char × β) → List (List Char × β)
  order_perm : ∀ {β : Type} (options : List (List Char × β)), (order options).Perm options

/-- The exception that leaves the loading of a driver.  Nothing is looked for if there is a
function already. -/
def Drivers.thrownBy (D : Drivers) (t : Trace) : DriverSource → Option String
  | .initFunc _ => none
  | source => D.searchThrows t source

/-- A call to a driver: its reply, and the run with the call at its end. -/
abbrev perform (D : Drivers) (t : Trace) (action : Action) : Reply × Trace :=
  (D.answer t action, t ++ [(action, D.answer t action)])

/-- A step without a reply, or with one that nobody looks at. -/
abbrev note (t : Trace) (action : Action) : Trace := t ++ [(action, .success)]

/-! ## Databases -/

/-- An `AdbcDriver` that was loaded, and whether it has a function for its release. -/
structure LoadedDriver where
  block : Id
  releasable : Bool
  deriving DecidableEq

/-- `AdbcDatabase`: zeros, the options before it is initialised, or a database of a driver. -/
inductive DatabaseHandle where
  | zeroed
  | pending (args : TempDatabase) (temp : Id)
  | ready (driver : LoadedDriver) (database : Id)

/-- `AdbcDatabaseNew`. -/
def adbcDatabaseNew (t : Trace) : DatabaseHandle × Trace :=
  (.pending .new t.length, note t (.new .tempDatabase))

/-- `options[key] = value`, or the member for the key. -/
def TempDatabase.setOption (args : TempDatabase) (key value : List Char) : TempDatabase :=
  if key = "driver".toList then { args with driver := value }
  else if key = "entrypoint".toList then { args with entrypoint := value }
  else if key = "additional_manifest_search_path_list".toList then
    { args with additionalManifestSearchPathList := value }
  else if key = "additional_profile_search_path_list".toList then
    { args with additionalProfileSearchPathList := value }
  else { args with options := args.options.insert key value }

/-- `AdbcDatabaseSetOption`. -/
def adbcDatabaseSetOption (D : Drivers) (t : Trace) (key value : List Char) :
    DatabaseHandle → Reply × DatabaseHandle × Trace
  | .zeroed => (.managerError .invalidState "AdbcDatabaseSetOption: database not initialized",
      .zeroed, t)
  | .pending args temp => (.success, .pending (args.setOption key value) temp, t)
  | .ready driver database =>
    let (reply, t) := perform D t (.databaseSetOption driver.block database (.text key value))
    (reply, .ready driver database, t)

/-- `AdbcDriverManagerDatabaseSetLoadFlags`. -/
def adbcDriverManagerDatabaseSetLoadFlags (loadFlags : Nat) :
    DatabaseHandle → Reply × DatabaseHandle
  -- a write through a null pointer: every caller has called `AdbcDatabaseNew`
  | .zeroed => (.success, .zeroed)
  | .pending args temp => (.success, .pending { args with loadFlags := loadFlags } temp)
  | .ready driver database =>
    (.managerError .invalidState "Cannot SetLoadFlags after AdbcDatabaseInit",
      .ready driver database)

/-- A text that is not empty, or nothing: how the driver manager passes on a string. -/
def nonempty (text : List Char) : Option (List Char) := if text = [] then none else some text

/-- Which driver is loaded: the function that was set, or the one that is looked for by its name. -/
def TempDatabase.source (args : TempDatabase) : DriverSource :=
  match args.initFunc with
  | some address => .initFunc address
  | none => .find args.driver (nonempty args.entrypoint) args.loadFlags
      (nonempty args.additionalManifestSearchPathList)

/-- A driver that is not needed any more. -/
def dropDriver (t : Trace) (driver : LoadedDriver) : Trace :=
  note (if driver.releasable then note t (.release driver.block) else t) (.delete driver.block)

/-- Without a `release` the message of the driver is not copied. -/
def LoadedDriver.reported (driver : LoadedDriver) (reply : Reply) : Reply :=
  if driver.releasable then reply else ⟨reply.status, none⟩

/-- A loop over options: it ends with the first one that is refused, and leaves the last status
as it is if there is none. -/
def setOptions (D : Drivers) : Trace → Reply → List Action → Reply × Trace
  | t, status, [] => (status, t)
  | t, _, action :: actions =>
    let (reply, t) := perform D t action
    if reply.isOk then setOptions D t reply actions else (reply, t)

/-- The options of a hash table, in its order. -/
def Drivers.options (D : Drivers) {β : Type} (m : AList fun _ : List Char => β)
    (option : List Char → β → OptionValue) : List OptionValue :=
  (D.order (m.entries.map fun x => (x.1, x.2))).map fun x => option x.1 x.2

/-- The four loops of `AdbcDatabaseInit`.  Each one is run, whatever the ones before it have
left in `status`. -/
def setDatabaseOptions (D : Drivers) (t : Trace) (args : TempDatabase) (driver database : Id)
    (status : Reply) : Reply × Trace :=
  let (status, t) := setOptions D t status
    ((D.options args.options .text).map (.databaseSetOption driver database))
  let (status, t) := setOptions D t status
    ((D.options args.bytesOptions .bytes).map (.databaseSetOption driver database))
  let (status, t) := setOptions D t status
    ((D.options args.intOptions .int).map (.databaseSetOption driver database))
  setOptions D t status
    ((D.options args.doubleOptions .double).map (.databaseSetOption driver database))

/-- The end of `AdbcDatabaseInit`, with a database of the driver. -/
def configureDatabase (D : Drivers) (t : Trace) (args : TempDatabase) (driver : LoadedDriver)
    (database : Id) (status : Reply) : Reply × DatabaseHandle × Trace :=
  let (reply, t) := setDatabaseOptions D t args driver.block database status
  if reply.isOk then
    let (reply, t) := perform D t (.databaseInit driver.block database)
    (reply, .ready driver database, t)
  else
    let (_, t) := perform D t (.databaseRelease driver.block database)
    (driver.reported reply, .zeroed, dropDriver t driver)

/-- The middle, with a driver.  If the driver makes no database, nothing points to `args` any
more. -/
def createDatabase (D : Drivers) (t : Trace) (args : TempDatabase) (temp : Id)
    (driver : LoadedDriver) : Reply × DatabaseHandle × Trace :=
  let database := t.length
  let (reply, t) := perform D t (.databaseNew driver.block)
  if reply.isOk then configureDatabase D (note t (.delete temp)) args driver database reply
  else (driver.reported reply, .zeroed, dropDriver t driver)

/-- `AdbcDatabaseInit`, with what `private_data` points to.  It is cleared before the driver is
looked for and restored only if the search returns: after an exception nothing points to the
driver and to `args` any more. -/
def adbcDatabaseInit (D : Drivers) (t : Trace) :
    Option (TempDatabase × Id) → Except String Reply × DatabaseHandle × Trace
  | none => (.ok (.managerError .invalidState
      "Must call AdbcDatabaseNew before AdbcDatabaseInit"), .zeroed, t)
  | some (args, temp) =>
    match parseOptions D.toSurroundings args with
    | .error (.returned reply _) => (.ok reply, .pending args temp, t)
    | .error (.thrown what) => (.error what, .pending args temp, t)
    | .ok args =>
      let block := t.length
      let t := note t (.new .adbcDriver)
      match D.thrownBy t args.source with
      | some what => (.error what, .zeroed, note t (.loadThrown block args.source))
      | none =>
        let (reply, t) := perform D t (.load block args.source)
        let driver := ⟨block, D.releasable t⟩
        if reply.isOk then returns (createDatabase D t args temp driver)
        else (.ok reply, .pending args temp, dropDriver t driver)

/-- `AdbcDatabaseRelease`. -/
def adbcDatabaseRelease (D : Drivers) (t : Trace) : DatabaseHandle → Reply × Trace
  | .zeroed => (⟨.invalidState, none⟩, t)
  | .pending _ temp => (.success, note t (.delete temp))
  | .ready driver database =>
    let (reply, t) := perform D t (.databaseRelease driver.block database)
    (reply, dropDriver t driver)

/-- `Releaser<AdbcDatabase>`: only what is behind a pointer is released. -/
def releaseDatabase (D : Drivers) (t : Trace) : DatabaseHandle → Trace
  | .zeroed => t
  | handle => (adbcDatabaseRelease D t handle).2

/-! ## Connections -/

/-- `TempConnection`. -/
structure TempConnection where
  options : AList fun _ : List Char => List Char
  bytesOptions : AList fun _ : List Char => List Char
  intOptions : AList fun _ : List Char => Int
  doubleOptions : AList fun _ : List Char => Double

/-- `AdbcConnection`: zeros, the options before it is initialised, or a connection of a driver. -/
inductive ConnectionHandle where
  | zeroed
  | pending (args : TempConnection) (temp : Id)
  | ready (driver : LoadedDriver) (connection : Id)

/-- `AdbcConnectionNew`. -/
def adbcConnectionNew (t : Trace) : ConnectionHandle × Trace :=
  (.pending ⟨∅, ∅, ∅, ∅⟩ t.length, note t (.new .tempConnection))

/-- The options of a connection, in the order of the four loops. -/
def Drivers.connectionOptions (D : Drivers) (args : TempConnection) : List OptionValue :=
  D.options args.options .text ++ D.options args.bytesOptions .bytes ++
    D.options args.intOptions .int ++ D.options args.doubleOptions .double

/-- `AdbcConnectionInit`, with what `private_data` points to before the connection is
initialised. -/
def adbcConnectionInit (D : Drivers) (t : Trace) (database : DatabaseHandle) :
    Option (TempConnection × Id) → Reply × ConnectionHandle × Trace
  | none => (.managerError .invalidState "Must call AdbcConnectionNew first", .zeroed, t)
  | some (args, temp) =>
    match database with
    | .ready driver db =>
      let t := note t (.delete temp)
      let connection := t.length
      let (reply, t) := perform D t (.connectionNew driver.block db)
      if reply.isOk then
        -- here a refused option ends all of the loops
        let (reply, t) := setOptions D t reply
          ((D.connectionOptions args).map (.connectionSetOption driver.block connection))
        if reply.isOk then
          let (reply, t) := perform D t (.connectionInit driver.block connection db)
          (reply, .ready driver connection, t)
        else (reply, .ready driver connection, t)
      else (reply, .zeroed, t)
    | _ => (.managerError .invalidArgument "Database is not initialized", .pending args temp, t)

/-- The functions that are passed on to the driver of a connection. -/
def adbcConnectionCall (D : Drivers) (t : Trace) (connection : ConnectionHandle)
    (function : ConnectionFunction) : Reply × Trace :=
  match connection with
  | .ready driver connection => perform D t (.connectionCall driver.block connection function)
  | _ => (function.refused, t)

/-- `AdbcConnectionRelease`. -/
def adbcConnectionRelease (D : Drivers) (t : Trace) : ConnectionHandle → Reply × Trace
  | .zeroed => (⟨.invalidState, none⟩, t)
  | .pending _ temp => (.success, note t (.delete temp))
  | .ready driver connection => perform D t (.connectionRelease driver.block connection)

/-- `Releaser<AdbcConnection>`. -/
def releaseConnection (D : Drivers) (t : Trace) : ConnectionHandle → Trace
  | .zeroed => t
  | handle => (adbcConnectionRelease D t handle).2

/-! ## Statements -/

/-- `AdbcStatement`: zeros, one that the driver has refused to make, or one that it has made. -/
inductive StatementHandle where
  | zeroed
  | refused (driver : LoadedDriver)
  | ready (driver : LoadedDriver) (statement : Id)

/-- `AdbcStatementNew`. -/
def adbcStatementNew (D : Drivers) (t : Trace) (connection : ConnectionHandle) :
    Reply × StatementHandle × Trace :=
  match connection with
  | .ready driver connection =>
    let statement := t.length
    let (reply, t) := perform D t (.statementNew driver.block connection)
    (reply, if reply.isOk then .ready driver statement else .refused driver, t)
  | _ => (.managerError .invalidState "AdbcStatementNew: must call AdbcConnectionInit first",
      .zeroed, t)

/-- The functions that are passed on to the driver of a statement. -/
def adbcStatementCall (D : Drivers) (t : Trace) (statement : StatementHandle)
    (function : StatementFunction) : Reply × Trace :=
  match statement with
  | .zeroed => (function.refused, t)
  | .refused driver => perform D t (.statementCall driver.block none function)
  | .ready driver statement =>
    perform D t (.statementCall driver.block (some statement) function)

/-- `Releaser<AdbcStatement>`: what the driver has not made is not released. -/
def releaseStatement (D : Drivers) (t : Trace) : StatementHandle → Trace
  | .ready driver statement => (perform D t (.statementRelease driver.block statement)).2
  | _ => t

/-! ## What a run leaves open -/

theorem events_append (t : Trace) (action : Action) (reply : Reply) :
    events (t ++ [(action, reply)]) = events t ++ action.events t.length reply := by
  simp [events, List.zipIdx_append]

/-- What a step makes has the number of the step. -/
theorem opened_eq {action : Action} {i r : Id} {reply : Reply} {parent : Option Id}
    (h : .opened r parent ∈ action.events i reply) : r = i := by
  cases action <;> simp only [Action.events] at h <;> (try split at h) <;> simp_all

/-- **What is made next is new**: a resource has the number of the step that has made it. -/
theorem opened_lt {t : Trace} {r : Id} {parent : Option Id} (h : .opened r parent ∈ events t) :
    r < t.length := by
  obtain ⟨⟨step, i⟩, hstep, hopened⟩ := List.mem_flatMap.mp h
  rw [opened_eq hopened]
  exact (List.mem_zipIdx' hstep).1

/-- How many blocks a step leaves in no handle: the options of a database, if the driver refuses
to make it, and also the driver itself, if the search for it is left by an exception. -/
def Action.loses (reply : Reply) : Action → Nat
  | .databaseNew _ => if reply.isOk then 0 else 1
  | .loadThrown _ _ => 2
  | _ => 0

/-- How many blocks a run has left in no handle. -/
def lostBlocks (t : Trace) : Nat := (t.map fun step => step.1.loses step.2).sum

/-- Blocks that nobody frees, as resources on nothing. -/
abbrev unowned (lost : List Id) : List (Id × Option Id) := lost.map fun block => (block, none)

/-- **What is open after a run**: these resources, and the blocks that its steps have lost. -/
def Held (t : Trace) (F : List (Id × Option Id)) : Prop :=
  ∃ lost, Owns (events t) (F ++ unowned lost) ∧ lost.length = lostBlocks t

theorem held_nil : Held [] [] := ⟨[], owns_nil, rfl⟩

section Steps
variable {t : Trace} {F G : List (Id × Option Id)} {action : Action} {reply : Reply}

theorem Held.perm (h : Held t F) (hFG : F.Perm G) : Held t G := by
  obtain ⟨lost, hlost, hcount⟩ := h
  exact ⟨lost, hlost.perm (hFG.append_right _), hcount⟩

theorem lostBlocks_append (hkeeps : action.loses reply = 0) :
    lostBlocks (t ++ [(action, reply)]) = lostBlocks t := by
  simp [lostBlocks, hkeeps]

theorem mem_ids_append {r : Id} (lost : List Id) (h : r ∈ ids F) : r ∈ ids (F ++ unowned lost) := by
  rw [ids, List.map_append]
  exact List.mem_append_left _ h

theorem grounded_append (lost : List Id) (hF : Grounded F) : Grounded (F ++ unowned lost) := by
  refine hF.append fun x hx p hp => ?_
  obtain ⟨block, -, rfl⟩ := List.mem_map.mp hx
  cases hp

/-- A step that makes something, on nothing or on what is open, adds it to what is open. -/
theorem Held.step_opens (h : Held t F) (action : Action) (reply : Reply) (used : List Id)
    (parent : Option Id)
    (hevents : action.events t.length reply = used.map .used ++ [.opened t.length parent])
    (hkeeps : action.loses reply = 0) (hused : ∀ u ∈ used, u ∈ ids F)
    (hparent : ∀ p ∈ parent, p ∈ ids F) :
    Held (t ++ [(action, reply)]) ((t.length, parent) :: F) := by
  obtain ⟨lost, hlost, hcount⟩ := h
  refine ⟨lost, ?_, hcount.trans (lostBlocks_append hkeeps).symm⟩
  rw [events_append, hevents, ← List.append_assoc]
  refine (hlost.uses fun u hu => mem_ids_append lost (hused u hu)).opens (fun q hq => ?_)
    fun p hp => mem_ids_append lost (hparent p hp)
  rcases List.mem_append.mp hq with hq | hq
  · exact absurd (opened_lt hq) (Nat.lt_irrefl _)
  · simp at hq

/-- A step that uses what is there. -/
theorem Held.step_uses (h : Held t F) (used : List Id)
    (hevents : action.events t.length reply = used.map .used)
    (hkeeps : action.loses reply = 0) (hused : ∀ u ∈ used, u ∈ ids F) :
    Held (t ++ [(action, reply)]) F := by
  obtain ⟨lost, hlost, hcount⟩ := h
  refine ⟨lost, ?_, hcount.trans (lostBlocks_append hkeeps).symm⟩
  rw [events_append, hevents]
  exact hlost.uses fun u hu => mem_ids_append lost (hused u hu)

/-- A step that is the last one for something. -/
theorem Held.step_closes {r : Id} {parent : Option Id} (h : Held t ((r, parent) :: F))
    (used : List Id) (hevents : action.events t.length reply = used.map .used ++ [.closed r])
    (hkeeps : action.loses reply = 0)
    (hused : ∀ u ∈ used, u ∈ ids ((r, parent) :: F)) (hF : Grounded F) :
    Held (t ++ [(action, reply)]) F := by
  obtain ⟨lost, hlost, hcount⟩ := h
  refine ⟨lost, ?_, hcount.trans (lostBlocks_append hkeeps).symm⟩
  rw [events_append, hevents, ← List.append_assoc]
  exact (hlost.uses fun u hu => mem_ids_append lost (hused u hu)).closes (grounded_append lost hF)

/-- **The step that loses blocks**: they stay open, and nobody has them any more. -/
theorem Held.step_loses {blocks : List Id} (h : Held t (unowned blocks ++ F)) (used : List Id)
    (hevents : action.events t.length reply = used.map .used)
    (hloses : action.loses reply = blocks.length)
    (hused : ∀ u ∈ used, u ∈ ids (unowned blocks ++ F)) :
    Held (t ++ [(action, reply)]) F := by
  obtain ⟨lost, hlost, hcount⟩ := h
  refine ⟨blocks ++ lost, ?_, ?_⟩
  · have hbehind : (unowned blocks ++ F ++ unowned lost).Perm
        (F ++ unowned (blocks ++ lost)) := by
      rw [unowned, unowned, unowned, List.map_append, ← List.append_assoc]
      exact List.perm_append_comm.append_right _
    rw [events_append, hevents]
    exact (hlost.uses fun u hu => mem_ids_append lost (hused u hu)).perm hbehind
  · have hsum : lostBlocks (t ++ [(action, reply)]) = lostBlocks t + blocks.length := by
      simp [lostBlocks, hloses]
    rw [List.length_append, hcount, hsum, Nat.add_comm]

end Steps

/-! ## Each function -/

section Functions
variable {D : Drivers} {t t' : Trace} {F : List (Id × Option Id)} {reply : Reply}
variable {driver : LoadedDriver} {temp : Id}

/-- What a handle of a database owns, before and after it is initialised. -/
def DatabaseHandle.resources : DatabaseHandle → List (Id × Option Id)
  | .zeroed => []
  | .pending _ temp => [(temp, none)]
  | .ready driver database => [(database, some driver.block), (driver.block, none)]

/-- What a handle owns, on a database. -/
def ConnectionHandle.resources (database : Id) : ConnectionHandle → List (Id × Option Id)
  | .zeroed => []
  | .pending _ temp => [(temp, none)]
  | .ready _ connection => [(connection, some database)]

/-- What a handle owns, on a connection. -/
def StatementHandle.resources (connection : Id) : StatementHandle → List (Id × Option Id)
  | .ready _ statement => [(statement, some connection)]
  | _ => []

theorem dropDriver_held (h : Held t ((driver.block, none) :: F)) (hF : Grounded F) :
    Held (dropDriver t driver) F := by
  rw [dropDriver]
  split
  · exact (h.step_uses [driver.block] rfl rfl (by simp)).step_closes [] rfl rfl (by simp) hF
  · exact h.step_closes [] rfl rfl (by simp) hF

/-- A loop over options opens and closes nothing. -/
theorem setOptions_held (h : Held t F) (status : Reply) (actions : List Action) (used : List Id)
    (hactions : ∀ a ∈ actions, ∀ i r, a.events i r = used.map .used ∧ a.loses r = 0)
    (hused : ∀ u ∈ used, u ∈ ids F) : Held (setOptions D t status actions).2 F := by
  induction actions generalizing t status with
  | nil => exact h
  | cons action actions ih =>
    obtain ⟨hevents, hkeeps⟩ :=
      hactions action List.mem_cons_self t.length (D.answer t action)
    have hstep := h.step_uses used hevents hkeeps hused
    rw [setOptions]
    simp only
    by_cases hok : (D.answer t action).isOk
    · rw [if_pos hok]
      exact ih hstep _ fun a ha => hactions a (List.mem_cons_of_mem _ ha)
    · rw [if_neg hok]
      exact hstep

/-- The options of a database are told, which opens and closes nothing. -/
theorem setDatabaseOptions_held (h : Held t F) (args : TempDatabase) (status : Reply)
    {block database : Id} (hblock : block ∈ ids F) (hdatabase : database ∈ ids F) :
    Held (setDatabaseOptions D t args block database status).2 F := by
  have hused : ∀ u ∈ [block, database], u ∈ ids F := by
    intro u hu
    rcases List.mem_pair.mp hu with rfl | rfl
    · exact hblock
    · exact hdatabase
  have hloop : ∀ {t status} (options : List OptionValue), Held t F →
      Held (setOptions D t status (options.map (.databaseSetOption block database))).2 F := by
    intro t status options h
    refine setOptions_held h _ _ [block, database] (fun a ha i r => ?_) hused
    obtain ⟨option, -, rfl⟩ := List.mem_map.mp ha
    exact ⟨rfl, rfl⟩
  exact hloop _ (hloop _ (hloop _ (hloop _ h)))

@[simp] theorem reported_isOk (driver : LoadedDriver) (reply : Reply) :
    (driver.reported reply).isOk = reply.isOk := by
  rw [LoadedDriver.reported]
  split <;> rfl

/-- A function that leaves a handle: what is open is in the handle, and it holds a database of
the driver after a success. -/
structure LeavesDatabase (F : List (Id × Option Id))
    (result : Except String Reply × DatabaseHandle × Trace) : Prop where
  held : Held result.2.2 (result.2.1.resources ++ F)
  ready : ∀ reply, result.1 = .ok reply → reply.isOk →
    ∃ driver database, result.2.1 = .ready driver database

theorem configureDatabase_held {database : Id}
    (h : Held t ((database, some driver.block) :: (driver.block, none) :: F)) (hF : Grounded F)
    (args : TempDatabase) (status : Reply) :
    LeavesDatabase F (returns (configureDatabase D t args driver database status)) := by
  have hblock : driver.block ∈ ids ((database, some driver.block) :: (driver.block, none) :: F) :=
    by simp
  have hset := setDatabaseOptions_held (D := D) h args status hblock List.mem_cons_self
  rw [configureDatabase]
  generalize setDatabaseOptions D t args driver.block database status = set at hset ⊢
  obtain ⟨reply, t₁⟩ := set
  simp only at hset ⊢
  by_cases hok : reply.isOk
  · rw [if_pos hok]
    exact ⟨hset.step_uses [driver.block, database] rfl rfl (by simp), fun _ _ _ => ⟨_, _, rfl⟩⟩
  · rw [if_neg hok]
    refine ⟨dropDriver_held ?_ hF, fun reply' hsame hreply => ?_⟩
    · exact hset.step_closes [driver.block] rfl rfl (by simp) (hF.cons (by simp))
    · obtain rfl := Except.ok.inj hsame
      rw [reported_isOk] at hreply
      exact absurd hreply hok

theorem createDatabase_held (h : Held t ((driver.block, none) :: (temp, none) :: F))
    (hF : Grounded F) (args : TempDatabase) :
    LeavesDatabase F (returns (createDatabase D t args temp driver)) := by
  rw [createDatabase]
  simp only
  by_cases hok : (D.answer t (.databaseNew driver.block)).isOk
  · rw [if_pos hok]
    have hmade := h.step_opens (.databaseNew driver.block)
      (D.answer t (.databaseNew driver.block)) [driver.block] (some driver.block)
      (by simp [Action.events, hok]) (by simp [Action.loses, hok]) (by simp) (by simp)
    have hfront : ([(t.length, some driver.block), (driver.block, none)] ++ (temp, none) :: F).Perm
        ((temp, none) :: ([(t.length, some driver.block), (driver.block, none)] ++ F)) :=
      List.perm_middle
    have hfreed : Held (note _ (.delete temp)) _ :=
      (hmade.perm hfront).step_closes [] rfl rfl (by simp) ((hF.cons (by simp)).cons (by simp))
    exact configureDatabase_held hfreed hF args _
  · rw [if_neg hok]
    have hrefused : (D.answer t (.databaseNew driver.block)).isOk = false := by simpa using hok
    refine ⟨dropDriver_held ?_ hF, fun reply' hsame hreply => ?_⟩
    · have htemp : Held t (unowned [temp] ++ (driver.block, none) :: F) :=
        h.perm (List.Perm.swap _ _ _)
      exact htemp.step_loses [driver.block] (by simp [Action.events, hrefused])
        (by simp [Action.loses, hrefused]) (by simp)
    · obtain rfl := Except.ok.inj hsame
      rw [reported_isOk] at hreply
      exact absurd hreply hok

/-- **What `AdbcDatabaseInit` leaves**: what the handle owns then, and the blocks that it has
lost. -/
theorem adbcDatabaseInit_held (h : Held t ((temp, none) :: F)) (hF : Grounded F)
    (args : TempDatabase) : LeavesDatabase F (adbcDatabaseInit D t (some (args, temp))) := by
  rw [adbcDatabaseInit]
  simp only
  split
  · rename_i reply hrefused _
    exact ⟨h, fun reply' hsame hreply => by
      rw [← Except.ok.inj hsame, hrefused] at hreply
      cases hreply⟩
  · exact ⟨h, fun _ hsame => (by cases hsame)⟩
  · rename_i args hargs
    have hnew := h.step_opens (.new .adbcDriver) .success [] none rfl rfl (by simp) (by simp)
    split
    · -- nothing points to the driver and to the options
      have hblocks : Held (note t (.new .adbcDriver)) (unowned [t.length, temp] ++ F) := hnew
      exact ⟨hblocks.step_loses [t.length] rfl rfl (by simp), fun _ hsame => (by cases hsame)⟩
    · have hloaded : Held (perform D (note t (.new .adbcDriver)) (.load t.length args.source)).2
          ((t.length, none) :: (temp, none) :: F) := hnew.step_uses [t.length] rfl rfl (by simp)
      split
      · exact createDatabase_held hloaded hF args
      · rename_i hrefused
        refine ⟨dropDriver_held hloaded (hF.cons (by simp)), fun reply hsame hreply => ?_⟩
        obtain rfl := Except.ok.inj hsame
        exact absurd hreply hrefused

theorem releaseDatabase_held {handle : DatabaseHandle} (h : Held t (handle.resources ++ F))
    (hF : Grounded F) : Held (releaseDatabase D t handle) F := by
  cases handle with
  | zeroed => exact h
  | pending args temp => exact h.step_closes [] rfl rfl (by simp) hF
  | ready driver database =>
    exact dropDriver_held (h.step_closes [driver.block] rfl rfl
      (by simp) (hF.cons (by simp))) hF

/-- The same for a connection on a database with that driver. -/
structure LeavesConnection (F : List (Id × Option Id)) (driver : LoadedDriver) (database : Id)
    (result : Reply × ConnectionHandle × Trace) : Prop where
  held : Held result.2.2 (result.2.1.resources database ++ F)
  same : ∀ driver' connection, result.2.1 = .ready driver' connection → driver' = driver
  ready : result.1.isOk → ∃ connection, result.2.1 = .ready driver connection

/-- **What `AdbcConnectionInit` leaves.**  A connection that the driver has made is in the
handle, also if it could not be set up. -/
theorem adbcConnectionInit_held {database : Id} (h : Held t ((temp, none) :: F)) (hF : Grounded F)
    (hdriver : driver.block ∈ ids F) (hdatabase : database ∈ ids F) (args : TempConnection) :
    LeavesConnection F driver database
      (adbcConnectionInit D t (.ready driver database) (some (args, temp))) := by
  have hfreed : Held (note t (.delete temp)) F :=
    h.step_closes [] rfl rfl (by simp) hF
  rw [adbcConnectionInit]
  simp only
  generalize note t (.delete temp) = t₁ at hfreed ⊢
  by_cases hok : (D.answer t₁ (.connectionNew driver.block database)).isOk
  · rw [if_pos hok]
    have hmade := hfreed.step_opens (.connectionNew driver.block database)
      (D.answer t₁ (.connectionNew driver.block database)) [driver.block] (some database)
      (by simp [Action.events, hok]) rfl (by simpa using hdriver) (by simpa using hdatabase)
    have hsame : ∀ connection driver' c, ConnectionHandle.ready driver connection =
        .ready driver' c → driver' = driver := by
      intro connection driver' c hc
      cases hc
      rfl
    have hblock := List.mem_cons_of_mem t₁.length hdriver
    have hbase := List.mem_cons_of_mem t₁.length hdatabase
    have hset := setOptions_held (D := D) hmade
      (D.answer t₁ (.connectionNew driver.block database))
      ((D.connectionOptions args).map (.connectionSetOption driver.block t₁.length))
      [driver.block, t₁.length]
      (fun a ha i r => by
        obtain ⟨option, -, rfl⟩ := List.mem_map.mp ha
        exact ⟨rfl, rfl⟩)
      (fun u hu => by
        rcases List.mem_pair.mp hu with rfl | rfl
        · exact hblock
        · exact List.mem_cons_self)
    generalize setOptions D _ _ _ = set at hset ⊢
    obtain ⟨reply, t₂⟩ := set
    simp only at hset ⊢
    by_cases hoptions : reply.isOk
    · rw [if_pos hoptions]
      refine ⟨hset.step_uses [driver.block, t₁.length, database] rfl rfl
        (fun u hu => ?_), hsame _, fun _ => ⟨_, rfl⟩⟩
      simp only [List.mem_cons, List.not_mem_nil, or_false] at hu
      rcases hu with rfl | rfl | rfl
      · exact hblock
      · exact List.mem_cons_self
      · exact hbase
    · rw [if_neg hoptions]
      exact ⟨hset, hsame _, fun hreply => absurd hreply hoptions⟩
  · rw [if_neg hok]
    refine ⟨hfreed.step_uses [driver.block] ?_ rfl (by simpa using hdriver),
      fun driver' c hc => (nomatch hc), fun hreply => absurd hreply hok⟩
    simp [Action.events, hok]

theorem adbcConnectionCall_held (h : Held t F) {connection : Id} (hdriver : driver.block ∈ ids F)
    (hconnection : connection ∈ ids F) (function : ConnectionFunction) :
    Held (adbcConnectionCall D t (.ready driver connection) function).2 F :=
  h.step_uses [driver.block, connection] rfl rfl fun u hu => by
    rcases List.mem_pair.mp hu with rfl | rfl
    · exact hdriver
    · exact hconnection

theorem releaseConnection_held {handle : ConnectionHandle} {database : Id}
    (h : Held t (handle.resources database ++ F)) (hF : Grounded F)
    (hdriver : ∀ driver connection, handle = .ready driver connection → driver.block ∈ ids F) :
    Held (releaseConnection D t handle) F := by
  cases handle with
  | zeroed => exact h
  | pending args temp => exact h.step_closes [] rfl rfl (by simp) hF
  | ready driver connection =>
    refine h.step_closes [driver.block] rfl rfl (fun u hu => ?_) hF
    obtain rfl := List.mem_singleton.mp hu
    exact List.mem_cons_of_mem _ (hdriver driver connection rfl)

/-- The same for a statement on a connection. -/
structure LeavesStatement (F : List (Id × Option Id)) (driver : LoadedDriver) (connection : Id)
    (result : Reply × StatementHandle × Trace) : Prop where
  held : Held result.2.2 (result.2.1.resources connection ++ F)
  ready : result.1.isOk → ∃ statement, result.2.1 = .ready driver statement
  refused : result.1.isOk = false → result.2.1 = .refused driver

/-- **What `AdbcStatementNew` leaves**: what the handle owns then, which is a child of the
connection. -/
theorem adbcStatementNew_held (h : Held t F) {connection : Id} (hdriver : driver.block ∈ ids F)
    (hconnection : connection ∈ ids F) :
    LeavesStatement F driver connection (adbcStatementNew D t (.ready driver connection)) := by
  have hused : ∀ u ∈ [driver.block, connection], u ∈ ids F := by
    intro u hu
    rcases List.mem_pair.mp hu with rfl | rfl
    · exact hdriver
    · exact hconnection
  rw [adbcStatementNew]
  simp only
  by_cases hok : (D.answer t (.statementNew driver.block connection)).isOk
  · rw [if_pos hok]
    refine ⟨?_, fun _ => ⟨_, rfl⟩, fun hfailed => ?_⟩
    · exact h.step_opens _ _ [driver.block, connection] _ (by simp [Action.events, hok]) rfl hused
        (by simpa using hconnection)
    · simp [hok] at hfailed
  · rw [if_neg hok]
    refine ⟨?_, fun hreply => absurd hreply hok, fun _ => rfl⟩
    exact h.step_uses [driver.block, connection] (by simp [Action.events, hok]) rfl hused

theorem adbcStatementCall_held (h : Held t F) {statement : Id} (hdriver : driver.block ∈ ids F)
    (hstatement : statement ∈ ids F) (function : StatementFunction) :
    Held (adbcStatementCall D t (.ready driver statement) function).2 F :=
  h.step_uses [driver.block, statement] rfl rfl fun u hu => by
    rcases List.mem_pair.mp hu with rfl | rfl
    · exact hdriver
    · exact hstatement

theorem releaseStatement_held {handle : StatementHandle} {connection : Id}
    (h : Held t (handle.resources connection ++ F)) (hF : Grounded F)
    (hdriver : ∀ driver statement, handle = .ready driver statement → driver.block ∈ ids F) :
    Held (releaseStatement D t handle) F := by
  cases handle with
  | zeroed => exact h
  | refused driver => exact h
  | ready driver statement =>
    refine h.step_closes [driver.block] rfl rfl (fun u hu => ?_) hF
    obtain rfl := List.mem_singleton.mp hu
    exact List.mem_cons_of_mem _ (hdriver driver statement rfl)

end Functions

/-! ## Options that are refused -/

section Options
variable {D : Drivers} {t : Trace}

/-- **What loops over options have done**: the calls, in the order of the options, and the status
of the last one.  An option is left out only behind one that was refused. -/
structure Sets (t : Trace) (status : Reply) (actions : List Action) (calls : Trace)
    (result : Reply × Trace) : Prop where
  trace : result.2 = t ++ calls
  sublist : (calls.map Prod.fst).Sublist actions
  all : (∀ call ∈ calls, call.2.isOk) → calls.map Prod.fst = actions
  status : result.1 = (calls.getLast?.map Prod.snd).getD status

theorem Sets.options {status : Reply} {actions : List Action} {calls : Trace}
    {result : Reply × Trace} (h : Sets t status actions calls result) :
    ∀ call ∈ calls, call.1 ∈ actions :=
  fun _ hcall => h.sublist.subset (List.mem_map_of_mem hcall)

theorem Sets.trans {status : Reply} {actions actions' : List Action} {calls calls' : Trace}
    {result result' : Reply × Trace} (h : Sets t status actions calls result)
    (h' : Sets result.2 result.1 actions' calls' result') :
    Sets t status (actions ++ actions') (calls ++ calls') result' where
  trace := by rw [h'.trace, h.trace, List.append_assoc]
  sublist := by
    rw [List.map_append]
    exact h.sublist.append h'.sublist
  all hok := by
    rw [List.map_append, h.all fun call hcall => hok call (List.mem_append_left _ hcall),
      h'.all fun call hcall => hok call (List.mem_append_right _ hcall)]
  status := by
    rw [h'.status, h.status, List.getLast?_append]
    cases calls'.getLast? <;> rfl

theorem setOptions_sets (status : Reply) (actions : List Action) :
    ∃ calls, Sets t status actions calls (setOptions D t status actions) := by
  induction actions generalizing t status with
  | nil => exact ⟨[], by simp [setOptions], .slnil, by simp, rfl⟩
  | cons action actions ih =>
    rw [setOptions]
    simp only
    by_cases hok : (D.answer t action).isOk
    · rw [if_pos hok]
      obtain ⟨calls, hcalls⟩ := @ih (t ++ [(action, D.answer t action)]) (D.answer t action)
      have hone : Sets t status [action] [(action, D.answer t action)]
          (D.answer t action, t ++ [(action, D.answer t action)]) :=
        ⟨rfl, .refl _, by simp, rfl⟩
      exact ⟨_, hone.trans hcalls⟩
    · rw [if_neg hok]
      refine ⟨[(action, D.answer t action)], rfl, by simp, fun hall => ?_, rfl⟩
      exact absurd (hall _ List.mem_cons_self) hok

/-- The calls for the options of a database. -/
def databaseOptions (D : Drivers) (args : TempDatabase) (driver database : Id) : List Action :=
  (D.options args.options .text ++ D.options args.bytesOptions .bytes ++
    D.options args.intOptions .int ++ D.options args.doubleOptions .double).map
      (.databaseSetOption driver database)

theorem setDatabaseOptions_sets (args : TempDatabase) (driver database : Id) (status : Reply) :
    ∃ calls, Sets t status (databaseOptions D args driver database) calls
      (setDatabaseOptions D t args driver database status) := by
  rw [databaseOptions, List.map_append, List.map_append, List.map_append]
  obtain ⟨_, htext⟩ := setOptions_sets (D := D) (t := t) status
    ((D.options args.options .text).map (.databaseSetOption driver database))
  obtain ⟨_, hbytes⟩ := setOptions_sets (D := D) _
    ((D.options args.bytesOptions .bytes).map (.databaseSetOption driver database))
  obtain ⟨_, hint⟩ := setOptions_sets (D := D) _
    ((D.options args.intOptions .int).map (.databaseSetOption driver database))
  obtain ⟨_, hdouble⟩ := setOptions_sets (D := D) _
    ((D.options args.doubleOptions .double).map (.databaseSetOption driver database))
  exact ⟨_, ((htext.trans hbytes).trans hint).trans hdouble⟩

/-- The options that a run passes on to a driver. -/
def optionCalls (t : Trace) : Trace :=
  t.filter fun step => match step.1 with
    | .databaseSetOption .. => true
    | _ => false

theorem optionCalls_append (t t' : Trace) : optionCalls (t ++ t') = optionCalls t ++ optionCalls t' :=
  List.filter_append ..

/-- The steps that drop a driver: its release, if it has one, and the end of its block. -/
def LoadedDriver.drops (driver : LoadedDriver) : Trace :=
  (if driver.releasable then [(.release driver.block, .success)] else []) ++
    [(.delete driver.block, .success)]

theorem dropDriver_eq (t : Trace) (driver : LoadedDriver) :
    dropDriver t driver = t ++ driver.drops := by
  rw [dropDriver, LoadedDriver.drops]
  split
  · exact List.append_assoc ..
  · rfl

/-- The database of a driver is kept: it is in the handle, and after the last option the driver
is told to initialise it, whose reply is returned. -/
def Keeps (result : Except String Reply × DatabaseHandle × Trace) (steps : Trace)
    (driver : LoadedDriver) (database : Id) (last : Action × Reply) : Prop :=
  result.2.1 = .ready driver database ∧ ∃ reply, result.1 = .ok reply ∧
    [last, (.databaseInit driver.block database, reply)] <:+ steps

/-- The database of a driver is dropped: after the last option it is released, and the driver
after it; the status of the last option is returned. -/
def Drops (result : Except String Reply × DatabaseHandle × Trace) (steps : Trace)
    (driver : LoadedDriver) (database : Id) (last : Action × Reply) : Prop :=
  result.2.1 = .zeroed ∧ (∃ reply, result.1 = .ok reply ∧ reply.status = last.2.status) ∧
    ∃ released, last :: (.databaseRelease driver.block database, released) :: driver.drops <:+ steps

/-- **Which option decides**: the last one that was passed on.  The database is kept if it was
accepted, and dropped if it was refused. -/
structure LastDecides (t : Trace) (result : Except String Reply × DatabaseHandle × Trace)
    (steps : Trace) : Prop where
  trace : result.2.2 = t ++ steps
  last : ∀ last, (optionCalls steps).getLast? = some last → ∃ driver database option,
    last.1 = .databaseSetOption driver.block database option ∧
      (last.2.isOk = true → Keeps result steps driver database last) ∧
      (last.2.isOk = false → Drops result steps driver database last)

/-- Steps before it pass on no options. -/
theorem LastDecides.after {result : Except String Reply × DatabaseHandle × Trace}
    {before steps : Trace} (h : LastDecides (t ++ before) result steps)
    (hbefore : optionCalls before = []) : LastDecides t result (before ++ steps) := by
  refine ⟨h.trace.trans (List.append_assoc ..), fun last hlast => ?_⟩
  rw [optionCalls_append, hbefore, List.nil_append] at hlast
  obtain ⟨driver, database, option, hoption, hkeeps, hdrops⟩ := h.last last hlast
  refine ⟨driver, database, option, hoption, fun hok => ?_, fun hok => ?_⟩
  · obtain ⟨hready, reply, hreply, hsuffix⟩ := hkeeps hok
    exact ⟨hready, reply, hreply, hsuffix.trans (List.suffix_append before steps)⟩
  · obtain ⟨hzeroed, hstatus, released, hsuffix⟩ := hdrops hok
    exact ⟨hzeroed, hstatus, released, hsuffix.trans (List.suffix_append before steps)⟩

/-- No option is passed on at all. -/
theorem LastDecides.none {result : Except String Reply × DatabaseHandle × Trace} {steps : Trace}
    (htrace : result.2.2 = t ++ steps) (hnone : optionCalls steps = []) :
    LastDecides t result steps := by
  refine ⟨htrace, fun last hlast => ?_⟩
  rw [hnone] at hlast
  cases hlast

end Options

end DriverManager
end AdbcClient
