import AdbcClient.DriverSession
import AdbcClient.ConnectionPool

/-!
# The users of connections

A scan, an insert, `adbc_execute` and the functions that read metadata each have a connection
and at most one statement at a time.  The connection is from the pool of an attached database,
or an ephemeral one; the statement is destroyed before it.  A pool is shared by the catalog, the
inserts that were planned, and the handles on its connections, and it is destroyed with the
last of them.

`Placed` says where the connections and the statements of a `Session` are.  It makes every step
of the extension one that a session admits, so that nobody has to promise this:
`extension_legal` and `extension_releases_all` hold for any order of calls, by any number of
users.
-/
namespace AdbcClient
open Runs ObjectStore ResourceTree DriverManager

namespace DriverSession
variable (D : Drivers) {s : Session}

/-- The address of the connection that a statement was made on. -/
def Session.address (s : Session) (a : Nat) : Option Nat :=
  (s.statements.lookup a).map Statement.address

/-- A session that has come about by some admissible operations of its own. -/
def Driven (s : Session) : Prop :=
  ∃ ops, Meets (next D) Admissible start ops ∧ run (next D) start ops = s

theorem Driven.next {D : Drivers} (h : Driven D s) {op : Operation} (hop : Admissible s op) :
    Driven D (next D s op) := by
  obtain ⟨ops, hops, rfl⟩ := h
  exact ⟨ops ++ [op], meets_append.mpr ⟨hops, hop, trivial⟩, run_append _ _ _⟩

theorem mem_statements {a : Nat} : a ∈ s.statements ↔ s.address a ≠ none := by
  rw [← AList.lookup_isSome, Session.address]
  cases s.statements.lookup a <;> simp

theorem admissible_destroy {k : Nat} (hk : k ∈ s.connections)
    (hunused : ∀ a, s.address a ≠ some k) : Admissible s (.destroy k) := by
  refine ⟨hk, fun x hx haddress => hunused x.1 ?_⟩
  rw [Session.address, AList.mem_lookup_iff.mpr hx, ← haddress]
  rfl

/-! What an operation does to the keys, and to the connections of statements. -/

theorem connectionCall_moves (k : Nat) (function : ConnectionFunction) :
    (next D s (.connectionCall k function)).connections = s.connections ∧
      (next D s (.connectionCall k function)).address = s.address := by
  rw [next]
  split <;> exact ⟨rfl, rfl⟩

theorem statementCall_moves (a : Nat) (function : StatementFunction) :
    (next D s (.statementCall a function)).connections = s.connections ∧
      (next D s (.statementCall a function)).address = s.address := by
  rw [next]
  split <;> exact ⟨rfl, rfl⟩

theorem construct_moves (k : Nat) (uri : List Char) :
    (next D s (.construct k uri)).address = s.address ∧
      match (AdbcConnection.construct D s.trace uri).1 with
      | .ok c => (next D s (.construct k uri)).connections = s.connections.insert k c
      | .error _ => (next D s (.construct k uri)).connections = s.connections := by
  rw [next]
  generalize AdbcConnection.construct D s.trace uri = result
  obtain ⟨failed | c, t⟩ := result <;> exact ⟨rfl, rfl⟩

theorem destroy_moves {k : Nat} (hk : k ∈ s.connections) :
    (next D s (.destroy k)).connections = s.connections.erase k ∧
      (next D s (.destroy k)).address = s.address := by
  obtain ⟨c, hk⟩ := exists_lookup hk
  rw [next, hk]
  exact ⟨rfl, rfl⟩

/-- A statement under a key, new or in the place of another one: its address is that of its
connection. -/
theorem address_insert (connections : AList fun _ : Nat => AdbcConnection) (t : Trace) (a : Nat)
    (statement : Statement) :
    Session.address ⟨connections, s.statements.insert a statement, t⟩ =
      Function.update s.address a (some statement.address) := by
  funext a'
  by_cases he : a' = a
  · subst he
    rw [Function.update_self, Session.address, AList.lookup_insert]
    rfl
  · rw [Function.update_of_ne he, Session.address, AList.lookup_insert_ne he]
    rfl

theorem makeStatement_moves (a k : Nat) (queryText : List Char) :
    (next D s (.makeStatement a k queryText)).connections = s.connections ∧
      ((next D s (.makeStatement a k queryText)).address = s.address ∨
        (next D s (.makeStatement a k queryText)).address =
          Function.update s.address a (some k)) := by
  rw [next]
  split
  · exact ⟨rfl, .inl rfl⟩
  · rename_i c hk
    generalize c.makeStatement D s.trace queryText = result
    obtain ⟨failed | handle, t⟩ := result
    · exact ⟨rfl, .inl rfl⟩
    · exact ⟨rfl, .inr (address_insert ..)⟩

theorem newStatement_moves (a k : Nat) :
    (next D s (.newStatement a k)).connections = s.connections ∧
      ((next D s (.newStatement a k)).address = s.address ∨
        (next D s (.newStatement a k)).address = Function.update s.address a (some k)) := by
  rw [next]
  split
  · exact ⟨rfl, .inl rfl⟩
  · rename_i c hk
    simp only
    generalize adbcStatementNew D s.trace c.connection = result
    obtain ⟨reply, handle, t⟩ := result
    by_cases hok : reply.isOk
    · rw [if_pos hok]
      exact ⟨rfl, .inr (address_insert ..)⟩
    · rw [if_neg hok]
      exact ⟨rfl, .inl rfl⟩

theorem resetStatement_moves (a : Nat) (queryText : List Char) :
    (next D s (.resetStatement a queryText)).connections = s.connections ∧
      (next D s (.resetStatement a queryText)).address = s.address := by
  rw [next]
  split
  · exact ⟨rfl, rfl⟩
  · rename_i statement ha
    split
    · exact ⟨rfl, rfl⟩
    · rename_i c hk
      generalize c.makeStatement D s.trace queryText = result
      obtain ⟨failed | handle, t⟩ := result
      · exact ⟨rfl, rfl⟩
      · refine ⟨rfl, (address_insert ..).trans (Function.update_eq_self_iff.mpr ?_)⟩
        rw [Session.address, ha]
        rfl

theorem destroyStatement_moves (a : Nat) :
    (next D s (.destroyStatement a)).connections = s.connections ∧
      (next D s (.destroyStatement a)).address = Function.update s.address a none := by
  rw [next]
  split
  · rename_i ha
    refine ⟨rfl, (Function.update_eq_self_iff.mpr ?_).symm⟩
    rw [Session.address, ha]
    rfl
  · refine ⟨rfl, funext fun a' => ?_⟩
    by_cases he : a' = a
    · subst he
      rw [Function.update_self, Session.address, AList.lookup_erase]
      rfl
    · rw [Function.update_of_ne he, Session.address, AList.lookup_erase_ne he]
      rfl

end DriverSession

namespace ConnectionUsers
open DriverSession (Session)

/-- A pool, and the references to it besides those of handles. -/
structure SharedPool where
  uri : List Char
  pool : AdbcConnectionPool
  references : Nat

/-- Somebody with a connection.  An ephemeral connection has no pool. -/
structure User where
  pool : Option Nat
  handle : AdbcPooledConnection
  hasStatement : Bool

/-- The connections and statements, the pools, and the users.  A statement has the address of
its user. -/
structure World where
  session : Session
  pools : AList fun _ : Nat => SharedPool
  users : AList fun _ : Nat => User

/-- One operation of the extension on its pools, connections and statements.  An insert makes a
statement without a text. -/
inductive Operation where
  | newPool (p : Nat) (uri : List Char) (maxConnections : UInt64)
  | copyPool (p : Nat)
  | dropPool (p : Nat)
  | getConnection (u p k : Nat)
  | getEphemeralConnection (u k : Nat) (uri : List Char)
  | connectionCall (u : Nat) (function : ConnectionFunction)
  | makeStatement (u : Nat) (queryText : List Char)
  | newStatement (u : Nat)
  | resetStatement (u : Nat) (queryText : List Char)
  | statementCall (u : Nat) (function : StatementFunction)
  | destroyStatement (u : Nat)
  | destroy (u : Nat)

/-- The world in which nothing is attached, and nothing runs. -/
def start : World := ⟨DriverSession.start, ∅, ∅⟩

section Definitions
variable (D : Drivers)

/-- `make_uniq<AdbcConnection>(uri)`. -/
def openConnection (s : Session) (k : Nat) (uri : List Char) :
    Except Exception Connection × Session :=
  ((AdbcConnection.construct D s.trace uri).1.map fun _ => k,
    DriverSession.next D s (.construct k uri))

/-- `GetConnection` of a pool.  Only with no idle connection is one opened. -/
def getConnection (s : Session) (shared : SharedPool) (k : Nat) :
    Except Exception AdbcPooledConnection × AdbcConnectionPool × Session :=
  let (opening, s') := openConnection D s k shared.uri
  let (result, pool) := shared.pool.getConnection opening
  (result, pool, if shared.pool.connections = [] then s' else s)

/-- A reference to a pool is gone.  The last one takes the idle connections with it. -/
def dropReference (w : World) (p : Nat) : World :=
  match w.pools.lookup p with
  | none => w
  | some shared =>
    if shared.references = 0 ∧ ∀ x ∈ w.users.entries, x.2.pool ≠ some p then
      { w with
        session := run (DriverSession.next D) w.session
          (shared.pool.connections.map .destroy)
        pools := w.pools.erase p }
    else w

/-- `~AdbcPooledConnection`, of somebody who is gone: an ephemeral connection is destroyed with
the handle. -/
def destroyHandle (w : World) (user : User) : World :=
  if user.handle.ephemeral then
    { w with session := DriverSession.next D w.session (.destroy user.handle.connection) }
  else
    match user.pool with
    | none => w
    | some p =>
      match w.pools.lookup p with
      | none => w
      | some shared =>
        let pool := user.handle.destroy shared.pool
        dropReference D { w with pools := w.pools.insert p { shared with pool := pool } } p

/-- The statement of a user is destroyed, if there is one. -/
def destroyStatement (w : World) (u : Nat) (user : User) : World :=
  if user.hasStatement then
    { w with
      session := DriverSession.next D w.session (.destroyStatement u)
      users := w.users.insert u { user with hasStatement := false } }
  else w

/-- A user makes a statement.  There is one if the call has succeeded. -/
def tryStatement (w : World) (u : Nat) (user : User) (op : DriverSession.Operation) : World :=
  let session := DriverSession.next D w.session op
  { w with
    session := session
    users := w.users.insert u { user with hasStatement := decide (u ∈ session.statements) } }

/-- Somebody gets a handle, unless an exception was thrown. -/
def receive (w : World) (u : Nat) (pool : Option Nat) :
    Except Exception AdbcPooledConnection → World
  | .error _ => w
  | .ok handle =>
    let user := ⟨if handle.ephemeral then none else pool, handle, false⟩
    { w with users := w.users.insert u user }

/-- Something is done with a pool, if it exists. -/
def withPool (w : World) (p : Nat) (f : SharedPool → World) : World :=
  match w.pools.lookup p with
  | none => w
  | some shared => f shared

/-- Something is done with a user, if there is one. -/
def withUser (w : World) (u : Nat) (f : User → World) : World :=
  match w.users.lookup u with
  | none => w
  | some user => f user

/-- What an operation does.  One on something that does not exist does nothing. -/
def next (w : World) : Operation → World
  | .newPool p uri maxConnections =>
    { w with pools := w.pools.insert p ⟨uri, .new maxConnections, 1⟩ }
  | .copyPool p => withPool w p fun shared =>
    { w with pools := w.pools.insert p { shared with references := shared.references + 1 } }
  | .dropPool p => withPool w p fun shared =>
    dropReference D
      { w with pools := w.pools.insert p { shared with references := shared.references - 1 } } p
  | .getConnection u p k => withPool w p fun shared =>
    let (result, pool, s) := getConnection D w.session shared k
    receive { w with session := s, pools := w.pools.insert p { shared with pool := pool } } u
      (some p) result
  | .getEphemeralConnection u k uri =>
    let (opening, s) := openConnection D w.session k uri
    receive { w with session := s } u none (AdbcConnectionPool.getEphemeralConnection opening)
  | .connectionCall u function => withUser w u fun user =>
    { w with
      session := DriverSession.next D w.session
        (.connectionCall user.handle.connection function) }
  | .makeStatement u queryText => withUser w u fun user =>
    if user.hasStatement then w
    else tryStatement D w u user (.makeStatement u user.handle.connection queryText)
  | .newStatement u => withUser w u fun user =>
    if user.hasStatement then w
    else tryStatement D w u user (.newStatement u user.handle.connection)
  | .resetStatement u queryText => withUser w u fun user =>
    if user.hasStatement then
      { w with session := DriverSession.next D w.session (.resetStatement u queryText) }
    else w
  | .statementCall u function => withUser w u fun user =>
    if user.hasStatement then
      { w with session := DriverSession.next D w.session (.statementCall u function) }
    else w
  | .destroyStatement u => withUser w u fun user => destroyStatement D w u user
  | .destroy u => withUser w u fun user =>
    -- the members are destroyed in the reverse order: the statement, then the handle
    let w := destroyStatement D w u user
    destroyHandle D { w with users := w.users.erase u } user

end Definitions

/-- New objects have new addresses: that of a pool, of a user or of a connection is not in use. -/
def Fresh (w : World) : Operation → Prop
  | .newPool p _ _ => p ∉ w.pools
  | .getConnection u _ k | .getEphemeralConnection u k _ =>
    u ∉ w.users ∧ k ∉ w.session.connections
  | _ => True

instance (w : World) (op : Operation) : Decidable (Fresh w op) :=
  match op with
  | .newPool p _ _ => inferInstanceAs (Decidable (p ∉ w.pools))
  | .getConnection u _ k | .getEphemeralConnection u k _ =>
    inferInstanceAs (Decidable (u ∉ w.users ∧ k ∉ w.session.connections))
  | .copyPool _ | .dropPool _ | .connectionCall .. | .makeStatement .. | .newStatement _
  | .resetStatement .. | .statementCall .. | .destroyStatement _ | .destroy _ =>
    inferInstanceAs (Decidable True)

/-! ## Where connections and statements are -/

/-- The connections of a pool that nobody uses. -/
def SharedPool.idle (shared : SharedPool) : List Connection := shared.pool.connections

/-- The connection of a user, as the list of one that the user holds. -/
def User.connections (user : User) : List Connection := [user.handle.connection]

/-- The connection that a user has made a statement on. -/
def World.address (w : World) (u : Nat) : Option Connection :=
  (w.users.lookup u).bind fun user =>
    if user.hasStatement then some user.handle.connection else none

/-- An ephemeral connection has no pool, and every other one has. -/
def Belongs (pools : AList fun _ : Nat => SharedPool) (user : User) : Prop :=
  user.handle.ephemeral = true ∧ user.pool = none ∨
    user.handle.ephemeral = false ∧ ∃ p ∈ pools, user.pool = some p

/-- **Where connections are**: idle in one pool, with one user, or among these that are about to
be destroyed.  A statement is on the connection of its user. -/
structure Placed (D : Drivers) (w : World) (leaving : List Connection) : Prop where
  driven : DriverSession.Driven D w.session
  connections : w.session.connections.keys.Perm
    (leaving ++ (held SharedPool.idle w.pools ++ held User.connections w.users))
  statements : ∀ u, w.session.address u = w.address u
  pooled : ∀ u user, w.users.lookup u = some user → Belongs w.pools user

/-- A pool has a reference left, or else a user whose handle goes back to it. -/
def Referenced (w : World) (p : Nat) : Prop :=
  ∀ shared, w.pools.lookup p = some shared → shared.references = 0 →
    ∃ u user, w.users.lookup u = some user ∧ user.pool = some p

/-- **The invariant**: everything has its place, and a pool lives as long as somebody refers to
it. -/
structure Kept (D : Drivers) (w : World) : Prop where
  placed : Placed D w []
  referenced : ∀ p, Referenced w p

theorem kept_start (D : Drivers) : Kept D start :=
  ⟨⟨⟨[], trivial, rfl⟩, .nil, fun _ => rfl, by simp [start]⟩, by simp [Referenced, start]⟩

section Invariant
variable {D : Drivers} {w : World} {leaving : List Connection} {u p k : Nat} {user : User}
variable {shared : SharedPool}

theorem Placed.nodup (h : Placed D w leaving) :
    (leaving ++ (held SharedPool.idle w.pools ++ held User.connections w.users)).Nodup :=
  h.connections.nodup_iff.mp w.session.connections.nodupKeys

/-- The connection of a statement has a user. -/
theorem Placed.statement_used (h : Placed D w leaving) (hu : w.session.address u = some k) :
    k ∈ held User.connections w.users := by
  rw [h.statements, World.address] at hu
  obtain ⟨user, hlookup, hk⟩ := Option.bind_eq_some_iff.mp hu
  by_cases hstatement : user.hasStatement
  · rw [if_pos hstatement] at hk
    obtain rfl := Option.some.inj hk
    exact mem_held.mpr ⟨u, user, hlookup, List.mem_singleton_self _⟩
  · rw [if_neg hstatement] at hk
    cases hk

/-- **Destroying** a connection that is nowhere any more. -/
theorem Placed.destroy (h : Placed D w (k :: leaving)) :
    Placed D { w with session := DriverSession.next D w.session (.destroy k) } leaving := by
  have hk : k ∈ w.session.connections :=
    h.connections.mem_iff.mpr (List.mem_append_left _ List.mem_cons_self)
  have hunused : ∀ a, w.session.address a ≠ some k := by
    intro a ha
    have hused := h.statement_used ha
    have hnodup := h.nodup
    rw [List.cons_append, List.nodup_cons] at hnodup
    exact hnodup.1 (List.mem_append_right _ (List.mem_append_right _ hused))
  obtain ⟨hconnections, haddress⟩ := DriverSession.destroy_moves D hk
  refine ⟨h.driven.next (DriverSession.admissible_destroy hk hunused), ?_, fun a => ?_, h.pooled⟩
  · show (DriverSession.next D w.session (.destroy k)).connections.keys.Perm _
    rw [hconnections, AList.keys_erase]
    have herased := h.connections.erase k
    rwa [List.cons_append, List.erase_cons_head] at herased
  · show (DriverSession.next D w.session (.destroy k)).address a = _
    rw [haddress]
    exact h.statements a

theorem Placed.destroyAll {connections : List Connection}
    (h : Placed D w (connections ++ leaving)) :
    Placed D { w with
      session := run (DriverSession.next D) w.session (connections.map .destroy) } leaving := by
  induction connections generalizing w with
  | nil => exact h
  | cons k connections ih => exact ih h.destroy

/-- **A reference less**: the other pools have theirs. -/
theorem Placed.dropReference (h : Placed D w []) (hothers : ∀ p', p' ≠ p → Referenced w p') :
    Kept D (dropReference D w p) := by
  rw [ConnectionUsers.dropReference]
  split
  · rename_i hp
    refine ⟨h, fun p' => ?_⟩
    by_cases he : p' = p
    · subst he
      intro shared hshared
      rw [hp] at hshared
      cases hshared
    · exact hothers p' he
  · rename_i shared hp
    by_cases hlast : shared.references = 0 ∧ ∀ x ∈ w.users.entries, x.2.pool ≠ some p
    · rw [if_pos hlast]
      have hplaced : Placed D { w with pools := w.pools.erase p } (shared.pool.connections ++ []) := by
        refine ⟨h.driven, ?_, h.statements, fun u user hu => ?_⟩
        · have herased := (held_erase SharedPool.idle hp).append_right
            (held User.connections w.users)
          rw [List.append_assoc] at herased
          rw [List.append_nil]
          exact h.connections.trans herased
        · rcases h.pooled u user hu with hephemeral | ⟨hpooled, p', hp', hpool⟩
          · exact .inl hephemeral
          · refine .inr ⟨hpooled, p', AList.mem_erase.mpr ⟨?_, hp'⟩, hpool⟩
            rintro rfl
            exact hlast.2 ⟨u, user⟩ (AList.mem_lookup_iff.mp hu) hpool
      refine ⟨hplaced.destroyAll, fun p' shared' hshared' => ?_⟩
      by_cases he : p' = p
      · subst he
        rw [AList.lookup_erase] at hshared'
        cases hshared'
      · rw [AList.lookup_erase_ne he] at hshared'
        exact hothers p' he shared' hshared'
    · rw [if_neg hlast]
      refine ⟨h, fun p' => ?_⟩
      by_cases he : p' = p
      · subst he
        intro shared' hshared' hzero
        obtain rfl := Option.some.inj (hp.symm.trans hshared')
        by_contra hnone
        refine hlast ⟨hzero, fun x hx hpool => hnone ?_⟩
        exact ⟨x.1, x.2, AList.mem_lookup_iff.mpr hx, hpool⟩
      · exact hothers p' he

/-- A pool with other connections, or another number of references. -/
theorem Placed.replacePool (h : Placed D w leaving) (hp : w.pools.lookup p = some shared)
    (shared' : SharedPool) (leaving' : List Connection)
    (hidle : (leaving ++ shared.idle).Perm (leaving' ++ shared'.idle)) :
    Placed D { w with pools := w.pools.insert p shared' } leaving' := by
  refine ⟨h.driven, h.connections.trans ?_, h.statements, fun u user hu => ?_⟩
  · rw [← List.append_assoc, ← List.append_assoc]
    refine List.Perm.append_right _ ?_
    rw [held_insert_eq, ← List.append_assoc]
    refine ((held_erase SharedPool.idle hp).append_left leaving).trans ?_
    rw [← List.append_assoc]
    exact hidle.append_right _
  · rcases h.pooled u user hu with hephemeral | ⟨hpooled, p', hp', hpool⟩
    · exact .inl hephemeral
    · exact .inr ⟨hpooled, p', (AList.mem_insert _).mpr (.inr hp'), hpool⟩

/-- A pool that is put in its place has a reference, or had the same handles on it before. -/
theorem Referenced.replacePool {p' : Nat} (h : Referenced w p') {shared' : SharedPool}
    (hlast : p' = p → shared'.references = 0 →
      ∃ shared, w.pools.lookup p = some shared ∧ shared.references = 0) :
    Referenced { w with pools := w.pools.insert p shared' } p' := by
  intro shared hshared hzero
  by_cases he : p' = p
  · subst he
    obtain rfl := Option.some.inj ((AList.lookup_insert _).symm.trans hshared)
    obtain ⟨old, hold, hzero⟩ := hlast rfl hzero
    exact h old hold hzero
  · rw [AList.lookup_insert_ne he] at hshared
    exact h shared hshared hzero

/-- The connections of the users do not change with a flag. -/
theorem held_flag (hu : w.users.lookup u = some user) (hasStatement : Bool) :
    (held User.connections (w.users.insert u { user with hasStatement := hasStatement })).Perm
      (held User.connections w.users) := by
  have hreplaced := held_replace User.connections (b := { user with hasStatement := hasStatement })
    hu
  exact (List.perm_append_left_iff [user.handle.connection]).mp hreplaced

/-- A statement of a user is made or destroyed, and everything else stays where it is. -/
theorem Kept.setStatement (h : Kept D w) (hu : w.users.lookup u = some user) {s : Session}
    {hasStatement : Bool} (hdriven : DriverSession.Driven D s)
    (hconnections : s.connections = w.session.connections)
    (haddress : s.address = Function.update w.session.address u
      (if hasStatement then some user.handle.connection else none)) :
    Kept D { w with
      session := s
      users := w.users.insert u { user with hasStatement := hasStatement } } := by
  refine ⟨⟨hdriven, ?_, fun u' => ?_, fun u' user' hu' => ?_⟩, fun p shared hp hzero => ?_⟩
  · rw [hconnections]
    exact h.placed.connections.trans ((held_flag hu hasStatement).symm.append_left _)
  · show s.address u' = _
    rw [haddress, World.address]
    by_cases he : u' = u
    · subst he
      rw [Function.update_self, AList.lookup_insert]
      rfl
    · rw [Function.update_of_ne he, AList.lookup_insert_ne he]
      exact h.placed.statements u'
  · by_cases he : u' = u
    · subst he
      obtain rfl := Option.some.inj ((AList.lookup_insert _).symm.trans hu')
      exact h.placed.pooled u' user hu
    · rw [AList.lookup_insert_ne he] at hu'
      exact h.placed.pooled u' user' hu'
  · obtain ⟨u', user', hu', hpool⟩ := h.referenced p shared hp hzero
    by_cases he : u' = u
    · subst he
      obtain rfl := Option.some.inj (hu.symm.trans hu')
      exact ⟨u', _, AList.lookup_insert _, hpool⟩
    · exact ⟨u', user', (AList.lookup_insert_ne he).trans hu', hpool⟩

/-- Calls of connections and statements leave everything where it is. -/
theorem Kept.call (h : Kept D w) {op : DriverSession.Operation}
    (hop : DriverSession.Admissible w.session op)
    (hmoves : (DriverSession.next D w.session op).connections = w.session.connections ∧
      (DriverSession.next D w.session op).address = w.session.address) :
    Kept D { w with session := DriverSession.next D w.session op } := by
  refine ⟨⟨h.placed.driven.next hop, ?_, fun u => ?_, h.placed.pooled⟩, h.referenced⟩
  · rw [hmoves.1]
    exact h.placed.connections
  · show (DriverSession.next D w.session op).address u = _
    rw [hmoves.2]
    exact h.placed.statements u

/-- The connection that a user holds exists in the session. -/
theorem Placed.connection_mem (h : Placed D w leaving) (hu : w.users.lookup u = some user) :
    user.handle.connection ∈ w.session.connections := by
  refine h.connections.mem_iff.mpr (List.mem_append_right _ (List.mem_append_right _ ?_))
  exact mem_held.mpr ⟨u, user, hu, List.mem_singleton_self _⟩

/-- A user has a statement if it says so. -/
theorem Placed.address_eq (h : Placed D w leaving) (hu : w.users.lookup u = some user) :
    w.session.address u = if user.hasStatement then some user.handle.connection else none := by
  rw [h.statements, World.address, hu]
  rfl

theorem Placed.statement_mem_iff (h : Placed D w leaving) (hu : w.users.lookup u = some user) :
    u ∈ w.session.statements ↔ user.hasStatement = true := by
  rw [DriverSession.mem_statements, h.address_eq hu]
  by_cases hstatement : user.hasStatement <;> simp [hstatement]

theorem Kept.tryStatement (h : Kept D w) (hu : w.users.lookup u = some user)
    (hnone : ¬ user.hasStatement) {op : DriverSession.Operation}
    (hop : u ∉ w.session.statements → user.handle.connection ∈ w.session.connections →
      DriverSession.Admissible w.session op)
    (hmoves : (DriverSession.next D w.session op).connections = w.session.connections ∧
      ((DriverSession.next D w.session op).address = w.session.address ∨
        (DriverSession.next D w.session op).address =
          Function.update w.session.address u (some user.handle.connection))) :
    Kept D (tryStatement D w u user op) := by
  have hnew : u ∉ w.session.statements := fun hmem =>
    hnone ((h.placed.statement_mem_iff hu).mp hmem)
  refine h.setStatement hu (h.placed.driven.next (hop hnew (h.placed.connection_mem hu)))
    hmoves.1 ?_
  have hzero : w.session.address u = none := by
    rw [h.placed.address_eq hu, if_neg hnone]
  rcases hmoves.2 with hsame | hmade
  · have hfailed : u ∉ (DriverSession.next D w.session op).statements := by
      rw [DriverSession.mem_statements, hsame, hzero]
      exact fun hne => hne rfl
    rw [hsame, decide_eq_false hfailed]
    exact (Function.update_eq_self_iff.mpr hzero.symm).symm
  · have hdone : u ∈ (DriverSession.next D w.session op).statements := by
      rw [DriverSession.mem_statements, hmade, Function.update_self]
      exact Option.some_ne_none _
    rw [hmade, decide_eq_true hdone]
    rfl

theorem Kept.destroyStatement (h : Kept D w) (hu : w.users.lookup u = some user) :
    Kept D (destroyStatement D w u user) ∧
      (destroyStatement D w u user).users.lookup u = some { user with hasStatement := false } := by
  rw [ConnectionUsers.destroyStatement]
  by_cases hstatement : user.hasStatement
  · rw [if_pos hstatement]
    have hmem : u ∈ w.session.statements := (h.placed.statement_mem_iff hu).mpr hstatement
    obtain ⟨hconnections, haddress⟩ := DriverSession.destroyStatement_moves D (s := w.session) u
    exact ⟨h.setStatement hu (h.placed.driven.next hmem) hconnections haddress,
      AList.lookup_insert _⟩
  · rw [if_neg hstatement]
    obtain ⟨pool, handle, hasStatement⟩ := user
    obtain rfl : hasStatement = false := by simpa using hstatement
    exact ⟨h, hu⟩

/-- A user without a statement goes, whose handle is destroyed afterwards. -/
theorem Kept.eraseUser (h : Kept D w) (hu : w.users.lookup u = some user)
    (hnone : user.hasStatement = false) :
    Placed D { w with users := w.users.erase u } [user.handle.connection] ∧
      ∀ p, user.pool ≠ some p → Referenced { w with users := w.users.erase u } p := by
  refine ⟨⟨h.placed.driven, ?_, fun u' => ?_, fun u' user' hu' => ?_⟩,
    fun p hpool shared hp hzero => ?_⟩
  · have herased := (held_erase User.connections hu).append_left (held SharedPool.idle w.pools)
    refine h.placed.connections.trans (herased.trans ?_)
    rw [← List.append_assoc, ← List.append_assoc]
    exact List.perm_append_comm.append_right _
  · show w.session.address u' = _
    rw [h.placed.statements, World.address, World.address]
    by_cases he : u' = u
    · subst he
      rw [hu, AList.lookup_erase]
      simp [hnone]
    · rw [AList.lookup_erase_ne he]
  · by_cases he : u' = u
    · subst he
      rw [AList.lookup_erase] at hu'
      cases hu'
    · rw [AList.lookup_erase_ne he] at hu'
      exact h.placed.pooled u' user' hu'
  · obtain ⟨u', user', hu', hpool'⟩ := h.referenced p shared hp hzero
    refine ⟨u', user', (AList.lookup_erase_ne ?_).trans hu', hpool'⟩
    rintro rfl
    obtain rfl := Option.some.inj (hu.symm.trans hu')
    exact hpool hpool'

/-- **The handle of somebody who is gone.** -/
theorem Placed.destroyHandle (user : User) (h : Placed D w [user.handle.connection])
    (hbelongs : Belongs w.pools user) (hothers : ∀ p, user.pool ≠ some p → Referenced w p) :
    Kept D (destroyHandle D w user) := by
  rw [ConnectionUsers.destroyHandle]
  rcases hbelongs with ⟨hephemeral, hnone⟩ | ⟨hpooled, p, hp, hpool⟩
  · rw [if_pos hephemeral]
    refine ⟨h.destroy, fun p => hothers p ?_⟩
    rw [hnone]
    simp
  · obtain ⟨shared, hp⟩ := exists_lookup hp
    rw [if_neg (by simp [hpooled]), hpool]
    simp only
    rw [hp]
    simp only
    have hreturned : ([user.handle.connection] ++ shared.idle).Perm
        ([] ++ (user.handle.destroy shared.pool).connections) := by
      rw [AdbcPooledConnection.destroy, if_neg (by simp [hpooled])]
      exact List.perm_append_comm
    have hplaced :=
      h.replacePool hp { shared with pool := user.handle.destroy shared.pool } [] hreturned
    refine hplaced.dropReference fun p' hne =>
      (hothers p' ?_).replacePool fun he => absurd he hne
    rw [hpool]
    exact fun he => hne (Option.some.inj he).symm

/-- A session in which nothing has happened, or a connection was opened at `k`. -/
def Opened (D : Drivers) (s s' : Session) (opened : List Connection) : Prop :=
  DriverSession.Driven D s' ∧ s'.address = s.address ∧
    s'.connections.keys.Perm (opened ++ s.connections.keys)

theorem openConnection_opened (h : DriverSession.Driven D w.session)
    (hk : k ∉ w.session.connections) (uri : List Char) :
    match openConnection D w.session k uri with
    | (.ok c, s) => c = k ∧ Opened D w.session s [k]
    | (.error _, s) => Opened D w.session s [] := by
  obtain ⟨haddress, hconnections⟩ := DriverSession.construct_moves D (s := w.session) k uri
  have hdriven : DriverSession.Driven D (DriverSession.next D w.session (.construct k uri)) :=
    h.next hk
  rw [openConnection]
  generalize (AdbcConnection.construct D w.session.trace uri).1 = result at hconnections ⊢
  cases result with
  | ok c =>
    refine ⟨rfl, hdriven, haddress, ?_⟩
    rw [hconnections, AList.keys_insert, List.erase_of_not_mem hk]
    exact .refl _
  | error e =>
    refine ⟨hdriven, haddress, ?_⟩
    rw [hconnections]
    exact .refl _

/-- **`GetConnection` takes a connection** from the idle ones, or one that was opened for it. -/
theorem getConnection_opened (h : DriverSession.Driven D w.session)
    (hk : k ∉ w.session.connections) (shared : SharedPool) :
    match getConnection D w.session shared k with
    | (.ok handle, pool, s) => ∃ opened, Opened D w.session s opened ∧
        (opened ++ shared.idle).Perm (handle.connection :: pool.connections)
    | (.error _, pool, s) => Opened D w.session s [] ∧ pool = shared.pool := by
  have hopen := openConnection_opened h hk shared.uri
  rw [getConnection]
  generalize openConnection D w.session k shared.uri = result at hopen ⊢
  obtain ⟨opening, s⟩ := result
  simp only
  -- an idle connection, one for the pool, an ephemeral one, or none
  rcases AdbcConnectionPool.getConnection_cases opening shared.pool with
    ⟨idle, c, hidle, he⟩ | ⟨c, hc, hidle, hlimit, he⟩ | ⟨c, hc, hidle, hlimit, he⟩ | ⟨e, hc, he⟩
  · rw [he, if_neg (by simp [hidle])]
    refine ⟨[], ⟨h, rfl, .refl _⟩, ?_⟩
    show (shared.pool.connections).Perm _
    rw [hidle]
    exact List.perm_append_comm
  · obtain rfl := hc
    obtain ⟨rfl, hopened⟩ := hopen
    rw [he, if_pos hidle]
    exact ⟨[c], hopened, .refl _⟩
  · obtain rfl := hc
    obtain ⟨rfl, hopened⟩ := hopen
    rw [he, if_pos hidle]
    exact ⟨[c], hopened, .refl _⟩
  · obtain rfl := hc
    rw [he]
    refine ⟨?_, rfl⟩
    by_cases hidle : shared.pool.connections = []
    · rw [if_pos hidle]
      exact hopen
    · rw [if_neg hidle]
      exact ⟨h, rfl, .refl _⟩

/-- Connections were opened, which are to be given to somebody next. -/
theorem Placed.opened (h : Placed D w leaving) {s : Session} {opened : List Connection}
    (hs : Opened D w.session s opened) :
    Placed D { w with session := s } (opened ++ leaving) := by
  obtain ⟨hdriven, haddress, hkeys⟩ := hs
  refine ⟨hdriven, ?_, fun u => ?_, h.pooled⟩
  · rw [List.append_assoc]
    exact hkeys.trans (h.connections.append_left opened)
  · show s.address u = _
    rw [haddress]
    exact h.statements u

/-- A new user gets the connection that was about to be given away. -/
theorem Placed.insertUser (h : Placed D w [user.handle.connection]) (hu : u ∉ w.users)
    (hnone : user.hasStatement = false) (hbelongs : Belongs w.pools user) :
    Placed D { w with users := w.users.insert u user } [] := by
  refine ⟨h.driven, h.connections.trans ?_, fun u' => ?_, fun u' user' hu' => ?_⟩
  · rw [held_insert hu, List.nil_append, ← List.append_assoc, ← List.append_assoc]
    exact List.perm_append_comm.append_right _
  · show w.session.address u' = _
    rw [h.statements, World.address, World.address]
    by_cases he : u' = u
    · subst he
      rw [AList.lookup_insert, AList.lookup_eq_none.mpr hu]
      simp [hnone]
    · rw [AList.lookup_insert_ne he]
  · by_cases he : u' = u
    · subst he
      obtain rfl := Option.some.inj ((AList.lookup_insert _).symm.trans hu')
      exact hbelongs
    · rw [AList.lookup_insert_ne he] at hu'
      exact h.pooled u' user' hu'

theorem Referenced.insertUser (h : Referenced w p) (hu : u ∉ w.users) :
    Referenced { w with users := w.users.insert u user } p := by
  intro shared hp hzero
  obtain ⟨u', user', hu', hpool⟩ := h shared hp hzero
  refine ⟨u', user', (AList.lookup_insert_ne ?_).trans hu', hpool⟩
  rintro rfl
  exact hu (mem_of_lookup hu')

/-- **Somebody gets a handle** on a connection that has come from a pool, or was opened. -/
theorem Placed.receive (handle : AdbcPooledConnection) {pool : Option Nat}
    (h : Placed D w [handle.connection]) (hreferenced : ∀ p, Referenced w p) (hu : u ∉ w.users)
    (hpool : handle.ephemeral = false → ∃ p ∈ w.pools, pool = some p) :
    Kept D (receive w u pool (.ok handle)) := by
  have hbelongs : Belongs w.pools
      ⟨if handle.ephemeral then none else pool, handle, false⟩ := by
    by_cases hephemeral : handle.ephemeral
    · exact .inl ⟨hephemeral, by simp [hephemeral]⟩
    · have hpooled : handle.ephemeral = false := by simpa using hephemeral
      obtain ⟨p, hp, rfl⟩ := hpool hpooled
      exact .inr ⟨hpooled, p, hp, by simp [hpooled]⟩
  exact ⟨Placed.insertUser h hu rfl hbelongs, fun p => (hreferenced p).insertUser hu⟩

theorem Kept.withPool (h : Kept D w) {f : SharedPool → World}
    (hf : ∀ shared, w.pools.lookup p = some shared → Kept D (f shared)) :
    Kept D (withPool w p f) := by
  rw [ConnectionUsers.withPool]
  split
  · exact h
  · rename_i shared hp
    exact hf shared hp

theorem Kept.withUser (h : Kept D w) {f : User → World}
    (hf : ∀ user, w.users.lookup u = some user → Kept D (f user)) :
    Kept D (withUser w u f) := by
  rw [ConnectionUsers.withUser]
  split
  · exact h
  · rename_i user hu
    exact hf user hu

/-- **One operation** keeps the invariant, whatever the drivers reply to it. -/
theorem Kept.next (h : Kept D w) {op : Operation} (hop : Fresh w op) : Kept D (next D w op) := by
  cases op with
  | newPool p uri maxConnections =>
    have hp : p ∉ w.pools := hop
    refine ⟨⟨h.placed.driven, ?_, h.placed.statements, fun u user hu => ?_⟩, fun p' => ?_⟩
    · show w.session.connections.keys.Perm ([] ++ (held SharedPool.idle (w.pools.insert p _) ++ _))
      rw [held_insert hp]
      exact h.placed.connections
    · rcases h.placed.pooled u user hu with hephemeral | ⟨hpooled, p', hp', hpool⟩
      · exact .inl hephemeral
      · exact .inr ⟨hpooled, p', (AList.mem_insert _).mpr (.inr hp'), hpool⟩
    · exact (h.referenced p').replacePool fun _ hzero => absurd hzero Nat.one_ne_zero
  | copyPool p =>
    refine h.withPool fun shared hp => ?_
    exact ⟨h.placed.replacePool hp _ [] (.refl _), fun p' => (h.referenced p').replacePool
      fun _ hzero => absurd hzero (Nat.succ_ne_zero _)⟩
  | dropPool p =>
    refine h.withPool fun shared hp => ?_
    -- with the last reference the pool goes, unless a handle still has it
    have hless :=
      h.placed.replacePool hp { shared with references := shared.references - 1 } [] (.refl _)
    exact hless.dropReference fun p' hne =>
      (h.referenced p').replacePool fun he => absurd he hne
  | getConnection u p k =>
    obtain ⟨hu, hk⟩ := hop
    refine h.withPool fun shared hp => ?_
    have hopened := getConnection_opened h.placed.driven hk shared
    generalize getConnection D w.session shared k = result at hopened ⊢
    obtain ⟨failed | handle, pool, s⟩ := result
    · obtain ⟨hs, rfl⟩ := hopened
      exact ⟨(h.placed.opened hs).replacePool hp _ [] (.refl _), fun p' =>
        (h.referenced p').replacePool fun _ hzero => ⟨shared, hp, hzero⟩⟩
    · obtain ⟨opened, hs, hmoved⟩ := hopened
      have hpools := (h.placed.opened hs).replacePool hp { shared with pool := pool }
        [handle.connection] (by rwa [List.append_nil])
      refine Placed.receive handle hpools (fun p' => ?_) hu fun hephemeral => ?_
      · exact (h.referenced p').replacePool fun _ hzero => ⟨shared, hp, hzero⟩
      · exact ⟨p, (AList.mem_insert _).mpr (.inl rfl), rfl⟩
  | getEphemeralConnection u k uri =>
    obtain ⟨hu, hk⟩ := hop
    have hopened := openConnection_opened h.placed.driven hk uri
    show Kept D (receive { w with session := (openConnection D w.session k uri).2 } u none
      (AdbcConnectionPool.getEphemeralConnection (openConnection D w.session k uri).1))
    generalize openConnection D w.session k uri = result at hopened ⊢
    obtain ⟨failed | c, s⟩ := result
    · exact ⟨h.placed.opened hopened, h.referenced⟩
    · obtain ⟨rfl, hs⟩ := hopened
      exact Placed.receive ⟨c, true⟩ (h.placed.opened hs) h.referenced hu
        fun hpooled => Bool.noConfusion hpooled
  | connectionCall u function =>
    refine h.withUser fun user hu => ?_
    exact h.call (h.placed.connection_mem hu) (DriverSession.connectionCall_moves D _ function)
  | makeStatement u queryText =>
    refine h.withUser fun user hu => ?_
    by_cases hstatement : user.hasStatement
    · rw [if_pos hstatement]
      exact h
    · rw [if_neg hstatement]
      exact h.tryStatement hu hstatement (fun hnew hconnection => ⟨hnew, hconnection⟩)
        (DriverSession.makeStatement_moves D u _ queryText)
  | newStatement u =>
    refine h.withUser fun user hu => ?_
    by_cases hstatement : user.hasStatement
    · rw [if_pos hstatement]
      exact h
    · rw [if_neg hstatement]
      exact h.tryStatement hu hstatement (fun hnew hconnection => ⟨hnew, hconnection⟩)
        (DriverSession.newStatement_moves D u _)
  | resetStatement u queryText =>
    refine h.withUser fun user hu => ?_
    by_cases hstatement : user.hasStatement
    · rw [if_pos hstatement]
      exact h.call ((h.placed.statement_mem_iff hu).mpr hstatement)
        (DriverSession.resetStatement_moves D u queryText)
    · rw [if_neg hstatement]
      exact h
  | statementCall u function =>
    refine h.withUser fun user hu => ?_
    by_cases hstatement : user.hasStatement
    · rw [if_pos hstatement]
      exact h.call ((h.placed.statement_mem_iff hu).mpr hstatement)
        (DriverSession.statementCall_moves D u function)
    · rw [if_neg hstatement]
      exact h
  | destroyStatement u =>
    exact h.withUser fun user hu => (h.destroyStatement hu).1
  | destroy u =>
    refine h.withUser fun user hu => ?_
    obtain ⟨hkept, hlookup⟩ := h.destroyStatement hu
    obtain ⟨hplaced, hothers⟩ := hkept.eraseUser hlookup rfl
    have hbelongs := hkept.placed.pooled u _ hlookup
    exact Placed.destroyHandle user hplaced hbelongs hothers

end Invariant

/-! ## Runs -/

variable (D : Drivers) {ops : List Operation}

theorem kept_run (hops : Meets (next D) Fresh start ops) : Kept D (run (next D) start ops) :=
  hops.invariant (fun _ _ h hop => h.next hop) (kept_start D)

/-- **Whatever the users do**, in any order, and whatever the drivers reply, nothing is used or
released that is not there, and what depends on something else is released before it.  Every
connection is idle in one pool or has one user, and there is nothing that no connection and no
statement has, but for the options of databases that a driver has refused to make, and the driver
and the options of the searches that an exception has left. -/
theorem extension_legal (hops : Meets (next D) Fresh start ops) :
    Legal (events (run (next D) start ops).session.trace) ∧
      (run (next D) start ops).session.connections.keys.Perm
        (held SharedPool.idle (run (next D) start ops).pools ++
          held User.connections (run (next D) start ops).users) ∧
      ∃ lost : List Id,
        (registry (events (run (next D) start ops).session.trace)).live.Perm
          (DriverSession.owned (run (next D) start ops).session.connections
            (run (next D) start ops).session.statements ++ unowned lost) ∧
        lost.length = lostBlocks (run (next D) start ops).session.trace := by
  have hkept := kept_run D hops
  obtain ⟨sessionOps, hsession, hrun⟩ := hkept.placed.driven
  obtain ⟨hlegal, hlost⟩ := DriverSession.session_legal D hsession
  rw [hrun] at hlegal hlost
  exact ⟨hlegal, hkept.placed.connections, hlost⟩

/-- **When nobody is left** and every reference to a pool is gone, all that drivers have made
has been released: once, after everything that was made on it, and it is not used after that. -/
theorem extension_releases_all (hops : Meets (next D) Fresh start ops)
    (husers : (run (next D) start ops).users = ∅)
    (hpools : ∀ p shared, (run (next D) start ops).pools.lookup p = some shared →
      shared.references = 0)
    {r parent : Id} (hr : .opened r (some parent) ∈
      events (run (next D) start ops).session.trace) :
    ∃ before after,
      events (run (next D) start ops).session.trace = before ++ .closed r :: after ∧
      .opened r (some parent) ∈ before ∧ .closed r ∉ before ∧
      (∀ child, .opened child (some r) ∈ before → .closed child ∈ before) ∧
      .used r ∉ after ∧ .closed r ∉ after ∧ ∀ child, .opened child (some r) ∉ after := by
  have hkept := kept_run D hops
  have hidle : held SharedPool.idle (run (next D) start ops).pools = [] := by
    refine List.eq_nil_iff_forall_not_mem.mpr fun c hc => ?_
    obtain ⟨p, shared, hp, -⟩ := mem_held.mp hc
    obtain ⟨u, user, hu, -⟩ := hkept.referenced p shared hp (hpools p shared hp)
    rw [husers] at hu
    cases hu
  have hkeys := hkept.placed.connections
  rw [hidle, husers] at hkeys
  have hnone : (run (next D) start ops).session.connections = ∅ := by
    apply AList.ext
    exact List.map_eq_nil_iff.mp (List.perm_nil.mp hkeys)
  obtain ⟨sessionOps, hsession, hrun⟩ := hkept.placed.driven
  rw [← hrun] at hnone hr ⊢
  exact DriverSession.driver_objects_released_once D hsession hnone hr

/-- A scan and an insert, when there is one connection in the pool: the insert gets an ephemeral
one, and the database is detached before the scan is over. -/
def scanAndInsert : List Operation :=
  [.newPool 0 "sqlite".toList 1, .getConnection 1 0 2, .makeStatement 1 "SELECT 1".toList,
    .getConnection 3 0 4, .newStatement 3, .dropPool 0, .destroy 1, .destroy 3]

theorem scanAndInsert_fresh :
    Meets (next DriverSession.agreeable) Fresh start scanAndInsert := by decide

/-- The objects of the two connections, of the statements and of the database are used and released
in a legal order. -/
theorem scanAndInsert_legal : Legal (events
    (run (next DriverSession.agreeable) start scanAndInsert).session.trace) :=
  (extension_legal DriverSession.agreeable scanAndInsert_fresh).1

/-- The connection of the pool, which the scan and the insert have used one after the other. -/
theorem scanAndInsert_releases :
    ∃ before after, events (run (next DriverSession.agreeable) start scanAndInsert).session.trace =
      before ++ .closed 9 :: after ∧ .closed 9 ∉ before ∧ .closed 11 ∈ before ∧
        .used 9 ∉ after ∧ .closed 9 ∉ after := by
  have hnone : (run (next DriverSession.agreeable) start scanAndInsert).pools = ∅ := rfl
  have hopened : .opened 9 (some 3) ∈
      events (run (next DriverSession.agreeable) start scanAndInsert).session.trace := by decide
  obtain ⟨before, after, hsplit, -, honce, hchildren, hused, hagain, hmade⟩ :=
    extension_releases_all DriverSession.agreeable scanAndInsert_fresh rfl
      (fun p shared hp => nomatch (congrArg (AList.lookup p) hnone).symm.trans hp) hopened
  have hchild : .opened 11 (some 9) ∈
      events (run (next DriverSession.agreeable) start scanAndInsert).session.trace := by decide
  rw [hsplit] at hchild
  refine ⟨before, after, hsplit, honce, hchildren 11 ?_, hused, hagain⟩
  rcases List.mem_append.mp hchild with hbefore | hlater
  · exact hbefore
  · rcases List.mem_cons.mp hlater with he | hafter
    · cases he
    · exact absurd hafter (hmade 11)

end ConnectionUsers
end AdbcClient
