import AdbcClient.Runs
import Mathlib.Data.List.Perm.Basic
import Mathlib.Data.List.Nodup

/-!
# The connection pool

`AdbcConnectionPool` keeps the idle connections of one attached database and
counts the connections it has handed out (`adbc_connection_pool.cpp`).
`GetConnection` hands out an idle connection, opens a new one while the pool may
still grow, and otherwise opens an *ephemeral* one that never enters the pool.
The destructor of the returned handle gives a pooled connection back.

The counter is an `idx_t`, so `getConnection` and `returnConnection` add and
subtract modulo `2 ^ 64`, and the limit is tested with `==` on the empty-list
branch only.  Both methods run under `connection_mutex`, so an interleaving of
calls is a sequence of them (`Step`).  `Accounted` is the invariant that rules
out a wrapped counter, a connection in two places and a connection lost.
-/
namespace AdbcClient
open Runs

/-- The object behind a `unique_ptr<AdbcConnection>`, by its address. -/
abbrev Connection := Nat

/-- `AdbcPooledConnection`, the handle that a caller holds until it destroys it. -/
structure AdbcPooledConnection where
  connection : Connection
  ephemeral : Bool
  deriving DecidableEq, Repr

/-- `AdbcConnectionPool`.  The back of `connections` is the end of the list. -/
structure AdbcConnectionPool where
  activeConnections : UInt64
  maxConnections : UInt64
  connections : List Connection
  deriving DecidableEq, Repr

namespace AdbcConnectionPool
variable {ε : Type}

/-- A pool is created empty, with its limit and no connection in use. -/
def new (maxConnections : UInt64) : AdbcConnectionPool := ⟨0, maxConnections, []⟩

/-- The end of `GetConnection`: take the connection at the back. -/
def handOut (pool : AdbcConnectionPool) (h : pool.connections ≠ []) :
    AdbcPooledConnection × AdbcConnectionPool :=
  (⟨pool.connections.getLast h, false⟩,
    { pool with
      connections := pool.connections.dropLast
      activeConnections := pool.activeConnections + 1 })

/-- `GetEphemeralConnection`. -/
def getEphemeralConnection (opening : Except ε Connection) : Except ε AdbcPooledConnection :=
  opening.map (fun c => ⟨c, true⟩)

/-- `GetConnection`.  `opening` is what `make_uniq<AdbcConnection>(uri)` does if
the call reaches it: it returns a connection or throws. -/
def getConnection (opening : Except ε Connection) (pool : AdbcConnectionPool) :
    Except ε AdbcPooledConnection × AdbcConnectionPool :=
  if h : pool.connections = [] then
    if pool.activeConnections == pool.maxConnections then
      (getEphemeralConnection opening, pool)
    else
      match opening with
      | .error e => (.error e, pool)
      | .ok c =>
        -- the new connection is pushed and, being the last one, handed out
        let grown := { pool with connections := pool.connections ++ [c] }
        let (handle, pool') := grown.handOut (by simp [grown])
        (.ok handle, pool')
  else
    let (handle, pool') := pool.handOut h
    (.ok handle, pool')

/-- `ReturnConnection`. -/
def returnConnection (pool : AdbcConnectionPool) (c : Connection) : AdbcConnectionPool :=
  { pool with
    activeConnections := pool.activeConnections - 1
    connections := pool.connections ++ [c] }

end AdbcConnectionPool

/-- `~AdbcPooledConnection`. -/
def AdbcPooledConnection.destroy (handle : AdbcPooledConnection) (pool : AdbcConnectionPool) :
    AdbcConnectionPool :=
  if handle.ephemeral then pool else pool.returnConnection handle.connection

namespace AdbcConnectionPool
variable {ε : Type}

/-- **What `GetConnection` can do**: reuse the last idle connection, or, with no
idle connection, open an ephemeral one at the limit and a pooled one below it, or
throw. -/
theorem getConnection_cases (opening : Except ε Connection) (pool : AdbcConnectionPool) :
    (∃ idle c, pool.connections = idle ++ [c] ∧
      getConnection opening pool = (.ok ⟨c, false⟩,
        { pool with connections := idle, activeConnections := pool.activeConnections + 1 })) ∨
    (∃ c, opening = .ok c ∧ pool.connections = [] ∧
      pool.activeConnections = pool.maxConnections ∧
      getConnection opening pool = (.ok ⟨c, true⟩, pool)) ∨
    (∃ c, opening = .ok c ∧ pool.connections = [] ∧
      pool.activeConnections ≠ pool.maxConnections ∧
      getConnection opening pool = (.ok ⟨c, false⟩,
        { pool with activeConnections := pool.activeConnections + 1 })) ∨
    (∃ e, opening = .error e ∧ getConnection opening pool = (.error e, pool)) := by
  obtain ⟨active, limit, idle⟩ := pool
  by_cases hidle : idle = []
  · subst hidle
    by_cases hmax : active = limit
    · cases opening with
      | ok c => exact .inr (.inl ⟨c, rfl, rfl, hmax, by
          simp [getConnection, hmax, getEphemeralConnection, Except.map]⟩)
      | error e => exact .inr (.inr (.inr ⟨e, rfl, by
          simp [getConnection, hmax, getEphemeralConnection, Except.map]⟩))
    · cases opening with
      | ok c => exact .inr (.inr (.inl ⟨c, rfl, rfl, hmax, by
          simp [getConnection, hmax, handOut]⟩))
      | error e => exact .inr (.inr (.inr ⟨e, rfl, by simp [getConnection, hmax]⟩))
  · exact .inl ⟨idle.dropLast, idle.getLast hidle, (List.dropLast_append_getLast hidle).symm,
      by simp [getConnection, hidle, handOut]⟩

theorem getConnection_limit (opening : Except ε Connection) (pool : AdbcConnectionPool) :
    (getConnection opening pool).2.maxConnections = pool.maxConnections := by
  rcases getConnection_cases opening pool with
    ⟨_, _, _, he⟩ | ⟨_, _, _, _, he⟩ | ⟨_, _, _, _, he⟩ | ⟨_, _, he⟩ <;> rw [he]

/-- **A `GetConnection` that throws changes nothing**: neither the idle connections nor the
counter. -/
theorem throw_unchanged {opening : Except ε Connection} {pool pool' : AdbcConnectionPool} {e : ε}
    (h : getConnection opening pool = (.error e, pool')) : pool' = pool := by
  rcases getConnection_cases opening pool with
    ⟨_, _, _, he⟩ | ⟨_, _, _, _, he⟩ | ⟨_, _, _, _, he⟩ | ⟨_, _, he⟩
  · cases (Prod.mk.inj (h.symm.trans he)).1
  · cases (Prod.mk.inj (h.symm.trans he)).1
  · cases (Prod.mk.inj (h.symm.trans he)).1
  · exact (Prod.mk.inj (h.symm.trans he)).2

end AdbcConnectionPool

/-! ## Runs of the pool -/

namespace PoolRun
open AdbcConnectionPool
variable {ε : Type}

/-- The pool, the handles alive, and the connections opened so far: for the pool
(`pooled`) and for one user only (`ephemerals`). -/
structure Configuration where
  pool : AdbcConnectionPool
  handles : List AdbcPooledConnection
  pooled : List Connection
  ephemerals : List Connection

/-- A new pool, from which nobody has taken a connection. -/
def initial (maxConnections : UInt64) : Configuration :=
  ⟨AdbcConnectionPool.new maxConnections, [], [], []⟩

/-- A caller gets a handle, for a connection that is new or was idle. -/
def Configuration.receive (c : Configuration) (pool : AdbcConnectionPool)
    (handle : AdbcPooledConnection) : Configuration where
  pool := pool
  handles := handle :: c.handles
  pooled :=
    if handle.ephemeral || c.pooled.contains handle.connection then c.pooled
    else handle.connection :: c.pooled
  ephemerals := if handle.ephemeral then handle.connection :: c.ephemerals else c.ephemerals

/-- A call of `GetConnection`, or the destruction of a handle. -/
inductive Action (ε : Type) where
  | get (opening : Except ε Connection)
  | destroy (handle : AdbcPooledConnection)

/-- Opening a connection makes a new object. -/
def Fresh (c : Configuration) (opening : Except ε Connection) : Prop :=
  ∀ conn, opening = .ok conn → conn ∉ c.pooled ∧ conn ∉ c.ephemerals

/-- The calls of any number of users, one critical section at a time. -/
inductive Step : Configuration → Action ε → Configuration → Prop
  | get {c : Configuration} {opening : Except ε Connection} {handle : AdbcPooledConnection}
      {pool : AdbcConnectionPool} (fresh : Fresh c opening)
      (h : getConnection opening c.pool = (.ok handle, pool)) :
      Step c (.get opening) (c.receive pool handle)
  | throw {c : Configuration} {opening : Except ε Connection} {e : ε}
      {pool : AdbcConnectionPool} (fresh : Fresh c opening)
      (h : getConnection opening c.pool = (.error e, pool)) :
      Step c (.get opening) { c with pool := pool }
  | destroy {c : Configuration} {handle : AdbcPooledConnection} (h : handle ∈ c.handles) :
      Step c (.destroy handle)
        { c with pool := handle.destroy c.pool, handles := c.handles.erase handle }

/-- The pool with its users as a transition system. -/
def system (ε : Type) (maxConnections : UInt64) : TransitionSystem Configuration (Action ε) where
  initial := (· = initial maxConnections)
  step := Step

/-- The connections of the live handles that are not ephemeral. -/
def handedOut (handles : List AdbcPooledConnection) : List Connection :=
  (handles.filter (fun h => !h.ephemeral)).map AdbcPooledConnection.connection

@[simp] theorem handedOut_pooled (c : Connection) (handles : List AdbcPooledConnection) :
    handedOut (⟨c, false⟩ :: handles) = c :: handedOut handles := by
  simp [handedOut]

@[simp] theorem handedOut_ephemeral (c : Connection) (handles : List AdbcPooledConnection) :
    handedOut (⟨c, true⟩ :: handles) = handedOut handles := by
  simp [handedOut]

/-- Destroying a handle takes its connection out of those handed out. -/
theorem handedOut_erase {handle : AdbcPooledConnection} {handles : List AdbcPooledConnection}
    (h : handle ∈ handles) :
    (handedOut handles).Perm (handedOut (handle :: handles.erase handle)) :=
  ((List.perm_cons_erase h).filter _).map _

/-- **The pool's invariant**: every connection that was opened is idle or has one handle, and the
counter is that of the handles. -/
structure Accounted (c : Configuration) : Prop where
  /-- The counter is the number of live handles that are not ephemeral. -/
  active_eq : c.pool.activeConnections.toNat = (handedOut c.handles).length
  /-- Connections in use and idle connections stay within the limit. -/
  bound : c.pool.activeConnections.toNat + c.pool.connections.length ≤
    c.pool.maxConnections.toNat
  /-- A pooled connection is idle or in one live handle. -/
  places : (c.pool.connections ++ handedOut c.handles).Perm c.pooled
  pooled_nodup : c.pooled.Nodup
  /-- An ephemeral connection is not a pooled one. -/
  disjoint : ∀ conn ∈ c.ephemerals, conn ∉ c.pooled
  /-- The connection of an ephemeral handle was opened as one. -/
  ephemeral_handle : ∀ h ∈ c.handles, h.ephemeral = true → h.connection ∈ c.ephemerals
  /-- No two handles hold one connection, so that nobody shares one. -/
  users_nodup : (c.handles.map AdbcPooledConnection.connection).Nodup

theorem accounted_initial (limit : UInt64) : Accounted (initial limit) := by
  constructor <;> simp [initial, AdbcConnectionPool.new, handedOut]

namespace Accounted
variable {c : Configuration}

/-- Idle connections and connections in use are all different. -/
theorem nodup (hc : Accounted c) : (c.pool.connections ++ handedOut c.handles).Nodup :=
  hc.places.nodup_iff.mpr hc.pooled_nodup

/-- An idle connection was opened for the pool. -/
theorem idle_pooled (hc : Accounted c) {conn : Connection} (h : conn ∈ c.pool.connections) :
    conn ∈ c.pooled :=
  hc.places.mem_iff.mp (List.mem_append_left _ h)

/-- The connection of a live handle is one of those opened. -/
theorem used_opened (hc : Accounted c) {conn : Connection}
    (h : conn ∈ c.handles.map AdbcPooledConnection.connection) :
    conn ∈ handedOut c.handles ∨ conn ∈ c.ephemerals := by
  obtain ⟨handle, hh, rfl⟩ := List.mem_map.mp h
  cases he : handle.ephemeral with
  | true => exact .inr (hc.ephemeral_handle handle hh he)
  | false =>
    exact .inl (List.mem_map.mpr ⟨handle, List.mem_filter.mpr ⟨hh, by simp [he]⟩, rfl⟩)

/-- A new connection is in no handle. -/
theorem fresh_not_used (hc : Accounted c) {conn : Connection}
    (fresh : conn ∉ c.pooled ∧ conn ∉ c.ephemerals) :
    conn ∉ c.handles.map AdbcPooledConnection.connection := by
  intro h
  rcases hc.used_opened h with h | h
  · exact fresh.1 (hc.places.mem_iff.mp (List.mem_append_right _ h))
  · exact fresh.2 h

/-- An idle connection is in no handle. -/
theorem idle_not_used (hc : Accounted c) {conn : Connection} (h : conn ∈ c.pool.connections) :
    conn ∉ c.handles.map AdbcPooledConnection.connection := by
  intro hu
  rcases hc.used_opened hu with hu | hu
  · exact (List.nodup_append.mp hc.nodup).2.2 conn h conn hu rfl
  · exact hc.disjoint conn hu (hc.idle_pooled h)

/-- Counting one more connection does not wrap. -/
theorem toNat_succ (hc : Accounted c)
    (h : c.pool.activeConnections ≠ c.pool.maxConnections) :
    (c.pool.activeConnections + 1).toNat = c.pool.activeConnections.toNat + 1 := by
  have hlt : c.pool.activeConnections.toNat < c.pool.maxConnections.toNat :=
    Nat.lt_of_le_of_ne (by have := hc.bound; omega) (fun he => h (UInt64.toNat.inj he))
  have hmax := c.pool.maxConnections.toNat_lt
  rw [UInt64.toNat_add, UInt64.toNat_one]
  omega

/-- With an idle connection the counter is below the limit. -/
theorem below_of_idle (hc : Accounted c) (h : c.pool.connections ≠ []) :
    c.pool.activeConnections ≠ c.pool.maxConnections := by
  intro he
  have hpos := List.length_pos_iff.mpr h
  have hb := hc.bound
  rw [he] at hb
  omega

theorem reuse (hc : Accounted c) {idle : List Connection} {conn : Connection}
    (h : c.pool.connections = idle ++ [conn]) :
    Accounted (c.receive { c.pool with
      connections := idle, activeConnections := c.pool.activeConnections + 1 }
      ⟨conn, false⟩) := by
  have hsucc := hc.toNat_succ (hc.below_of_idle (by simp [h]))
  have hmem : conn ∈ c.pooled := hc.idle_pooled (by simp [h])
  have hpooled : (c.receive { c.pool with
      connections := idle, activeConnections := c.pool.activeConnections + 1 }
      ⟨conn, false⟩).pooled = c.pooled := by simp [Configuration.receive, hmem]
  refine ⟨?_, ?_, ?_, hpooled ▸ hc.pooled_nodup, ?_, ?_, ?_⟩
  · simp [Configuration.receive, hsucc, hc.active_eq]
  · have hb := hc.bound
    simp only [h, List.length_append, List.length_singleton] at hb
    simp only [Configuration.receive, hsucc]
    omega
  · rw [hpooled]
    refine List.Perm.trans ?_ hc.places
    simp [Configuration.receive, h]
  · rw [hpooled]
    exact hc.disjoint
  · intro handle hh he
    rcases List.mem_cons.mp hh with rfl | hh
    · cases he
    · exact hc.ephemeral_handle handle hh he
  · exact List.nodup_cons.mpr ⟨hc.idle_not_used (by simp [h]), hc.users_nodup⟩

theorem grow (hc : Accounted c) {conn : Connection}
    (fresh : conn ∉ c.pooled ∧ conn ∉ c.ephemerals) (hidle : c.pool.connections = [])
    (hmax : c.pool.activeConnections ≠ c.pool.maxConnections) :
    Accounted (c.receive { c.pool with
      activeConnections := c.pool.activeConnections + 1 } ⟨conn, false⟩) := by
  have hsucc := hc.toNat_succ hmax
  have hpooled : (c.receive { c.pool with
      activeConnections := c.pool.activeConnections + 1 } ⟨conn, false⟩).pooled =
      conn :: c.pooled := by simp [Configuration.receive, fresh.1]
  have hlt : c.pool.activeConnections.toNat ≠ c.pool.maxConnections.toNat :=
    fun he => hmax (UInt64.toNat.inj he)
  refine ⟨?_, ?_, ?_, ?_, ?_, ?_, ?_⟩
  · simp [Configuration.receive, hsucc, hc.active_eq]
  · have hb := hc.bound
    simp only [hidle, List.length_nil] at hb
    simp only [Configuration.receive, hsucc, hidle, List.length_nil]
    omega
  · have hp := hc.places
    rw [hidle, List.nil_append] at hp
    rw [hpooled]
    simpa [Configuration.receive, hidle] using hp.cons conn
  · rw [hpooled]
    exact List.nodup_cons.mpr ⟨fresh.1, hc.pooled_nodup⟩
  · rw [hpooled]
    intro other ho
    have ho' : other ∈ c.ephemerals := by simpa [Configuration.receive] using ho
    refine fun hm => (List.mem_cons.mp hm).elim ?_ (hc.disjoint other ho')
    rintro rfl
    exact fresh.2 ho'
  · intro handle hh he
    rcases List.mem_cons.mp hh with rfl | hh
    · cases he
    · exact hc.ephemeral_handle handle hh he
  · exact List.nodup_cons.mpr ⟨hc.fresh_not_used fresh, hc.users_nodup⟩

theorem ephemeral (hc : Accounted c) {conn : Connection}
    (fresh : conn ∉ c.pooled ∧ conn ∉ c.ephemerals) :
    Accounted (c.receive c.pool ⟨conn, true⟩) := by
  refine ⟨?_, ?_, ?_, ?_, ?_, ?_, ?_⟩
  · simpa [Configuration.receive] using hc.active_eq
  · exact hc.bound
  · simpa [Configuration.receive] using hc.places
  · simpa [Configuration.receive] using hc.pooled_nodup
  · intro other ho
    simp only [Configuration.receive, Bool.true_or, ite_true] at ho ⊢
    rcases List.mem_cons.mp ho with rfl | ho
    · exact fresh.1
    · exact hc.disjoint other ho
  · intro handle hh he
    simp only [Configuration.receive, ite_true] at hh ⊢
    rcases List.mem_cons.mp hh with rfl | hh
    · exact List.mem_cons_self ..
    · exact List.mem_cons_of_mem _ (hc.ephemeral_handle handle hh he)
  · exact List.nodup_cons.mpr ⟨hc.fresh_not_used fresh, hc.users_nodup⟩

/-- **The counter does not wrap below zero**: a handle that will decrement it is
counted. -/
theorem active_pos (hc : Accounted c) {handle : AdbcPooledConnection}
    (h : handle ∈ c.handles) (he : handle.ephemeral = false) :
    0 < c.pool.activeConnections.toNat := by
  rw [hc.active_eq]
  refine List.length_pos_of_mem (List.mem_map.mpr ⟨handle, ?_, rfl⟩)
  exact List.mem_filter.mpr ⟨h, by simp [he]⟩

theorem destroy (hc : Accounted c) {handle : AdbcPooledConnection} (h : handle ∈ c.handles) :
    Accounted { c with
      pool := handle.destroy c.pool, handles := c.handles.erase handle } := by
  have hperm := handedOut_erase h
  have hsub : ∀ k ∈ c.handles.erase handle, k.ephemeral = true → k.connection ∈ c.ephemerals :=
    fun k hk => hc.ephemeral_handle k (List.mem_of_mem_erase hk)
  have husers : ((c.handles.erase handle).map AdbcPooledConnection.connection).Nodup :=
    (List.erase_sublist.map _).nodup hc.users_nodup
  obtain ⟨conn, eph⟩ := handle
  cases eph with
  | true =>
    rw [handedOut_ephemeral] at hperm
    refine ⟨?_, hc.bound, ?_, hc.pooled_nodup, hc.disjoint, hsub, husers⟩
    · exact hc.active_eq.trans hperm.length_eq
    · exact (hperm.symm.append_left _).trans hc.places
  | false =>
    rw [handedOut_pooled] at hperm
    have hpos := hc.active_pos h rfl
    have hlen := hperm.length_eq
    rw [List.length_cons] at hlen
    have hsubst : (c.pool.activeConnections - 1).toNat =
        c.pool.activeConnections.toNat - 1 := by
      rw [UInt64.toNat_sub_of_le _ _ (by rw [UInt64.le_iff_toNat_le, UInt64.toNat_one]; omega),
        UInt64.toNat_one]
    refine ⟨?_, ?_, ?_, hc.pooled_nodup, hc.disjoint, hsub, husers⟩
    · show (c.pool.activeConnections - 1).toNat =
        (handedOut (c.handles.erase ⟨conn, false⟩)).length
      rw [hsubst, hc.active_eq]
      omega
    · have hb := hc.bound
      show (c.pool.activeConnections - 1).toNat + (c.pool.connections ++ [conn]).length ≤ _
      rw [hsubst, List.length_append, List.length_singleton]
      show _ ≤ c.pool.maxConnections.toNat
      omega
    · refine List.Perm.trans ?_ hc.places
      show ((c.pool.connections ++ [conn]) ++ _).Perm _
      rw [List.append_assoc, List.singleton_append]
      exact hperm.symm.append_left _

/-- Every step keeps the invariant, whether or not opening a connection fails in it. -/
theorem step (hc : Accounted c) {a : Action ε} {d : Configuration} (hs : Step c a d) :
    Accounted d := by
  cases hs with
  | @get opening handle pool fresh h =>
    rcases getConnection_cases opening c.pool with
      ⟨idle, conn, hidle, he⟩ | ⟨conn, rfl, hidle, hmax, he⟩ | ⟨conn, rfl, hidle, hmax, he⟩ |
      ⟨e, rfl, he⟩
    · obtain ⟨⟨⟩, rfl⟩ := Prod.mk.inj (h.symm.trans he)
      exact hc.reuse hidle
    · obtain ⟨⟨⟩, rfl⟩ := Prod.mk.inj (h.symm.trans he)
      exact hc.ephemeral (fresh conn rfl)
    · obtain ⟨⟨⟩, rfl⟩ := Prod.mk.inj (h.symm.trans he)
      exact hc.grow (fresh conn rfl) hidle hmax
    · cases (Prod.mk.inj (h.symm.trans he)).1
  | @throw opening e pool fresh h =>
    rcases getConnection_cases opening c.pool with
      ⟨_, _, _, he⟩ | ⟨_, _, _, _, he⟩ | ⟨_, _, _, _, he⟩ | ⟨e', rfl, he⟩
    · cases (Prod.mk.inj (h.symm.trans he)).1
    · cases (Prod.mk.inj (h.symm.trans he)).1
    · cases (Prod.mk.inj (h.symm.trans he)).1
    · obtain ⟨-, rfl⟩ := Prod.mk.inj (h.symm.trans he)
      exact hc
  | destroy h => exact hc.destroy h

end Accounted

theorem accounted {limit : UInt64} {c : Configuration}
    (hc : (system ε limit).Reachable c) : Accounted c :=
  hc.invariant (fun _ h => h ▸ accounted_initial limit) (fun _ _ _ _ hI hs => hI.step hs)

/-- The limit is never changed: it is the one that the pool was created with. -/
theorem limit_const {limit : UInt64} {c : Configuration} (hc : (system ε limit).Reachable c) :
    c.pool.maxConnections = limit := by
  refine hc.invariant (I := fun c => c.pool.maxConnections = limit) ?_ ?_
  · rintro _ rfl
    rfl
  · rintro c a d - hI hs
    cases hs with
    | @get opening handle pool _ h | @throw opening e pool _ h =>
      have hlimit := getConnection_limit opening c.pool
      rw [h] at hlimit
      exact hlimit.trans hI
    | @destroy handle _ =>
      show (handle.destroy c.pool).maxConnections = limit
      rw [AdbcPooledConnection.destroy]
      split
      · exact hI
      · exact hI

/-- **A connection is opened only when the idle list is empty.** -/
theorem opens_only_when_empty {c d : Configuration} {a : Action ε} (hc : Accounted c)
    (hs : Step c a d) (hopen : d.pooled ≠ c.pooled ∨ d.ephemerals ≠ c.ephemerals) :
    c.pool.connections = [] := by
  cases hs with
  | @get opening handle pool _ h =>
    rcases getConnection_cases opening c.pool with
      ⟨idle, conn, hidle, he⟩ | ⟨_, _, hempty, _, he⟩ | ⟨_, _, hempty, _, he⟩ | ⟨_, _, he⟩
    · obtain ⟨⟨⟩, rfl⟩ := Prod.mk.inj (h.symm.trans he)
      have hmem : conn ∈ c.pooled := hc.idle_pooled (by simp [hidle])
      simp [Configuration.receive, hmem] at hopen
    · exact hempty
    · exact hempty
    · cases (Prod.mk.inj (h.symm.trans he)).1
  | throw => simp at hopen
  | destroy => simp at hopen

/-- **The pool accounts for every connection.**  In every reachable state, for
every limit: the counter is the number of live handles that are not ephemeral and
is positive whenever one of them is about to be destroyed; it stays within the
limit together with the idle connections; the connections opened for the pool are
those idle and those in one live handle, no two handles share one, and an
ephemeral connection is not idle.  A step opens a connection only if none is idle,
and a call that throws leaves the pool as it was. -/
theorem connections_accounted {limit : UInt64} {c : Configuration}
    (hc : (system ε limit).Reachable c) :
    (c.pool.activeConnections.toNat = (c.handles.filter (fun h => !h.ephemeral)).length ∧
      ∀ h ∈ c.handles, h.ephemeral = false → 0 < c.pool.activeConnections.toNat) ∧
    c.pool.activeConnections.toNat + c.pool.connections.length ≤ limit.toNat ∧
    ((c.pool.connections ++ handedOut c.handles).Perm c.pooled ∧
      (c.pool.connections ++ c.handles.map AdbcPooledConnection.connection).Nodup) ∧
    (∀ conn ∈ c.ephemerals, conn ∉ c.pool.connections) ∧
    (∀ a d, Step (ε := ε) c a d → d.pooled ≠ c.pooled ∨ d.ephemerals ≠ c.ephemerals →
      c.pool.connections = []) ∧
    (∀ (opening : Except ε Connection) e pool, getConnection opening c.pool = (.error e, pool) →
      pool = c.pool) := by
  have hI := accounted hc
  refine ⟨⟨?_, fun h hh => hI.active_pos hh⟩, ?_, ⟨hI.places, ?_⟩, ?_, ?_, ?_⟩
  · simpa [handedOut] using hI.active_eq
  · exact limit_const hc ▸ hI.bound
  · refine List.nodup_append.mpr ⟨(List.nodup_append.mp hI.nodup).1, hI.users_nodup, ?_⟩
    rintro conn hidle _ hused rfl
    exact hI.idle_not_used hidle hused
  · exact fun conn he hidle => hI.disjoint conn he (hI.idle_pooled hidle)
  · exact fun a d hs hopen => opens_only_when_empty hI hs hopen
  · exact fun opening e pool h => throw_unchanged h

/-- The theorem after one pooled and, at the limit, one ephemeral connection. -/
theorem connections_accounted_at_limit :
    ((getConnection (ε := Unit) (.ok 1)
      (getConnection (ε := Unit) (.ok 0) (new 1)).2).1 = .ok ⟨1, true⟩) ∧
    (1 : UInt64).toNat + ([] : List Connection).length ≤ (1 : UInt64).toNat := by
  have h0 : (system Unit 1).Reachable (initial 1) := .initial rfl
  have h1 : (system Unit 1).Reachable ((initial 1).receive ⟨1, 1, []⟩ ⟨0, false⟩) :=
    h0.step (a := .get (.ok 0)) (.get (by intro c h; simp [initial]) (by decide))
  have h2 : (system Unit 1).Reachable
      (((initial 1).receive ⟨1, 1, []⟩ ⟨0, false⟩).receive ⟨1, 1, []⟩ ⟨1, true⟩) :=
    h1.step (a := .get (.ok 1))
      (.get (by rintro c ⟨⟩; simp [initial, Configuration.receive]) (by decide))
  exact ⟨by decide, (connections_accounted h2).2.1⟩

end PoolRun
end AdbcClient
