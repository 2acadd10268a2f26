import AdbcClient.ConnectionPool
import AdbcClient.ObjectStore

/-!
# Moving pooled connections

An `AdbcPooledConnection` has three members: the pool, the connection, and a flag for
connections that do not go back to the pool (`adbc_connection_pool.hpp`).  Moves swap the
members one by one, also with those of a new object, whose flag nobody has set: the object
moved from is left with two null pointers and any flag.  Its destructor returns a connection
unless the flag is set (`adbc_connection_pool.cpp`).

`Balanced` says where the loans of a pool are, and how many destructors go through a null
pointer.  `moves_safe_iff` is what it comes to when all objects are destroyed.
-/
namespace AdbcClient
open Runs ObjectStore

/-- The members of an `AdbcPooledConnection`.  `none` is a null pointer. -/
structure PooledConnectionMembers (π : Type) where
  pool : Option π
  connection : Option Connection
  ephemeral : Bool
  deriving DecidableEq, Repr

namespace PooledConnectionMembers
variable {π : Type}

/-- The object that `GetConnection` makes.  An ephemeral one has no pool. -/
def ofHandle (pool : π) (handle : AdbcPooledConnection) : PooledConnectionMembers π where
  pool := if handle.ephemeral then none else some pool
  connection := some handle.connection
  ephemeral := handle.ephemeral

/-- A new object before the swaps of the move constructor. -/
def uninitialised (ephemeral : Bool) : PooledConnectionMembers π := ⟨none, none, ephemeral⟩

/-- The loan that the object stands for. -/
def loans (o : PooledConnectionMembers π) : List (π × Connection) :=
  match o.pool, o.connection, o.ephemeral with
  | some pool, some connection, false => [(pool, connection)]
  | _, _, _ => []

/-- The destructor would go through a null pointer, or return one. -/
def dangling (o : PooledConnectionMembers π) : List Unit :=
  match o.pool, o.connection, o.ephemeral with
  | some _, some _, _ => []
  | _, _, true => []
  | _, _, false => [()]

end PooledConnectionMembers

namespace ConnectionMoves
open PooledConnectionMembers
variable {κ π ε : Type} [DecidableEq κ] [DecidableEq π]

/-- What is done with the objects.  `flag` is what the new object finds in its flag. -/
inductive Operation (κ π ε : Type) where
  | getConnection (k : κ) (pool : π) (opening : Except ε Connection)
  | moveConstruct (k other : κ) (flag : Bool)
  | moveAssign (k other : κ)
  | destroy (k : κ)

/-- The objects, the pools, and what was lent and returned. -/
structure World (κ π : Type) where
  objects : AList fun _ : κ => PooledConnectionMembers π
  pools : π → AdbcConnectionPool
  loaned : List (π × Connection)
  returned : List (π × Connection)
  /-- The destructors that went through a null pointer. -/
  faults : Nat

/-- The world without objects, with these pools. -/
def start (pools : π → AdbcConnectionPool) : World κ π := ⟨∅, pools, [], [], 0⟩

/-- `~AdbcPooledConnection`. -/
def destructor (w : World κ π) (o : PooledConnectionMembers π) : World κ π :=
  if o.ephemeral then w
  else
    match o.pool, o.connection with
    | some pool, some connection =>
      { w with
        pools := Function.update w.pools pool ((w.pools pool).returnConnection connection)
        returned := (pool, connection) :: w.returned }
    | _, _ => { w with faults := w.faults + 1 }

/-- What an operation does.  One on an object that does not exist does nothing. -/
def next (w : World κ π) : Operation κ π ε → World κ π
  | .getConnection k pool opening =>
    match (w.pools pool).getConnection opening with
    | (.error _, pool') => { w with pools := Function.update w.pools pool pool' }
    | (.ok handle, pool') =>
      let o := ofHandle pool handle
      { w with
        objects := w.objects.insert k o
        pools := Function.update w.pools pool pool'
        loaned := o.loans ++ w.loaned }
  | .moveConstruct k other flag =>
    match w.objects.lookup other with
    | none => w
    | some o => { w with objects := (w.objects.insert other (uninitialised flag)).insert k o }
  | .moveAssign k other =>
    match w.objects.lookup k, w.objects.lookup other with
    | some o, some o' =>
      -- an object swapped with itself stays
      if k = other then w else { w with objects := (w.objects.insert other o).insert k o' }
    | _, _ => w
  | .destroy k =>
    match w.objects.lookup k with
    | none => w
    | some o => destructor { w with objects := w.objects.erase k } o

/-- Objects are constructed before they are used and destroyed after that. -/
def Admissible (w : World κ π) : Operation κ π ε → Prop
  | .getConnection k _ _ => k ∉ w.objects
  | .moveConstruct k other _ => k ∉ w.objects ∧ other ∈ w.objects
  | .moveAssign k other => k ∈ w.objects ∧ other ∈ w.objects
  | .destroy k => k ∈ w.objects

instance (w : World κ π) (op : Operation κ π ε) : Decidable (Admissible w op) :=
  match op with
  | .getConnection k _ _ => inferInstanceAs (Decidable (k ∉ w.objects))
  | .moveConstruct k other _ => inferInstanceAs (Decidable (k ∉ w.objects ∧ other ∈ w.objects))
  | .moveAssign k other => inferInstanceAs (Decidable (k ∈ w.objects ∧ other ∈ w.objects))
  | .destroy k => inferInstanceAs (Decidable (k ∈ w.objects))

/-- The move constructor finds the flag unset. -/
def Operation.findsUnset : Operation κ π ε → Bool
  | .moveConstruct _ _ flag => !flag
  | _ => false

/-- **The invariant**: every loan is with an object or returned, and of the `unset` flags
each is with an object or has led a destructor through a null pointer. -/
structure Balanced (unset : Nat) (w : World κ π) : Prop where
  loans : (held PooledConnectionMembers.loans w.objects ++ w.returned).Perm w.loaned
  dangling : (held PooledConnectionMembers.dangling w.objects).length + w.faults = unset

variable {unset : Nat} {w : World κ π}

omit [DecidableEq κ] [DecidableEq π] in
theorem balanced_start (pools : π → AdbcConnectionPool) :
    Balanced 0 (start pools : World κ π) := ⟨List.Perm.refl _, rfl⟩

omit [DecidableEq π] in
theorem dangling_ofHandle (pool : π) (handle : AdbcPooledConnection) :
    (ofHandle pool handle).dangling = [] := by
  obtain ⟨connection, ephemeral⟩ := handle
  cases ephemeral <;> rfl

/-- **A loan** from a pool puts a new object in its place, and keeps the balance. -/
theorem Balanced.getConnection (h : Balanced unset w) {k : κ} (hk : k ∉ w.objects) (pool : π)
    (opening : Except ε Connection) : Balanced unset (next w (.getConnection k pool opening)) := by
  rw [next]
  split
  · exact ⟨h.loans, h.dangling⟩
  · rename_i handle pool' _
    refine ⟨?_, ?_⟩
    · show (held _ (w.objects.insert k (ofHandle pool handle)) ++ w.returned).Perm _
      rw [held_insert hk, List.append_assoc]
      exact h.loans.append_left _
    · show (held _ (w.objects.insert k (ofHandle pool handle))).length + w.faults = unset
      rw [held_insert hk, dangling_ofHandle]
      exact h.dangling

/-- **A move construction** leaves an object with the flag that it finds. -/
theorem Balanced.moveConstruct (h : Balanced unset w) {k other : κ} (hk : k ∉ w.objects)
    (hother : other ∈ w.objects) (flag : Bool) :
    Balanced (unset + (!flag).toNat) (next w (.moveConstruct k other flag : Operation κ π ε)) := by
  obtain ⟨o, ho⟩ := exists_lookup hother
  simp only [next, ho]
  refine ⟨?_, ?_⟩
  · exact ((held_move _ ho hk).append_right _).trans h.loans
  · have hlength := (held_move PooledConnectionMembers.dangling
      (b := uninitialised flag) ho hk).length_eq
    have hdangling := h.dangling
    have hnew : (uninitialised flag : PooledConnectionMembers π).dangling.length =
        (!flag).toNat := by
      cases flag <;> rfl
    rw [List.length_append, hnew] at hlength
    show (held _ ((w.objects.insert other (uninitialised flag)).insert k o)).length + w.faults = _
    omega

/-- **A move assignment** exchanges two objects, which keeps the balance. -/
theorem Balanced.moveAssign (h : Balanced unset w) {k other : κ} (hk : k ∈ w.objects)
    (hother : other ∈ w.objects) :
    Balanced unset (next w (.moveAssign k other : Operation κ π ε)) := by
  obtain ⟨o, ho⟩ := exists_lookup hk
  obtain ⟨o', ho'⟩ := exists_lookup hother
  simp only [next, ho, ho']
  split
  · exact h
  · rename_i hne
    have hne' : other ≠ k := fun he => hne he.symm
    refine ⟨((held_swap _ ho' ho hne').append_right _).trans h.loans, ?_⟩
    show (held _ _).length + w.faults = unset
    rw [(held_swap _ ho' ho hne').length_eq]
    exact h.dangling

omit [DecidableEq κ] in
/-- **What a destructor can do**: nothing, go through a null pointer, or return the loan. -/
theorem destructor_cases (w : World κ π) (o : PooledConnectionMembers π) :
    (o.loans = [] ∧ o.dangling = [] ∧ destructor w o = w) ∨
    (o.loans = [] ∧ o.dangling = [()] ∧ destructor w o = { w with faults := w.faults + 1 }) ∨
    (∃ pool connection, o.loans = [(pool, connection)] ∧ o.dangling = [] ∧
      destructor w o =
        { w with
          pools := Function.update w.pools pool ((w.pools pool).returnConnection connection)
          returned := (pool, connection) :: w.returned }) := by
  obtain ⟨pool, connection, ephemeral⟩ := o
  cases ephemeral with
  | true => cases pool <;> cases connection <;> exact .inl ⟨rfl, rfl, rfl⟩
  | false =>
    cases pool with
    | none => exact .inr (.inl ⟨rfl, rfl, rfl⟩)
    | some pool =>
      cases connection with
      | none => exact .inr (.inl ⟨rfl, rfl, rfl⟩)
      | some connection => exact .inr (.inr ⟨pool, connection, rfl, rfl, rfl⟩)

/-- **A destruction** returns the loan of the object, or goes through a null pointer. -/
theorem Balanced.destroy (h : Balanced unset w) {k : κ} (hk : k ∈ w.objects) :
    Balanced unset (next w (.destroy k : Operation κ π ε)) := by
  obtain ⟨o, ho⟩ := exists_lookup hk
  have hloans := ((held_erase PooledConnectionMembers.loans ho).symm.append_right
    w.returned).trans h.loans
  have hdangling := (held_erase PooledConnectionMembers.dangling ho).length_eq
  have hbalance := h.dangling
  rw [List.length_append] at hdangling
  rw [List.append_assoc] at hloans
  simp only [next, ho]
  rcases destructor_cases { w with objects := w.objects.erase k } o with
    ⟨hnoLoan, hsafe, he⟩ | ⟨hnoLoan, hnull, he⟩ | ⟨pool, connection, hloan, hsafe, he⟩
  · rw [hnoLoan] at hloans
    rw [hsafe, List.length_nil] at hdangling
    rw [he]
    refine ⟨hloans, ?_⟩
    show (held _ (w.objects.erase k)).length + w.faults = unset
    omega
  · rw [hnoLoan] at hloans
    rw [hnull, List.length_singleton] at hdangling
    rw [he]
    refine ⟨hloans, ?_⟩
    show (held _ (w.objects.erase k)).length + (w.faults + 1) = unset
    omega
  · rw [hloan] at hloans
    rw [hsafe, List.length_nil] at hdangling
    rw [he]
    refine ⟨List.perm_middle.trans hloans, ?_⟩
    show (held _ (w.objects.erase k)).length + w.faults = unset
    omega

/-- **One operation** that respects the condition keeps the balance. -/
theorem Balanced.next (h : Balanced unset w) {op : Operation κ π ε} (hop : Admissible w op) :
    Balanced (unset + op.findsUnset.toNat) (next w op) := by
  cases op with
  | getConnection k pool opening => exact h.getConnection hop pool opening
  | moveConstruct k other flag => exact h.moveConstruct hop.1 hop.2 flag
  | moveAssign k other => exact h.moveAssign hop.1 hop.2
  | destroy k => exact h.destroy hop

/-- **A run** of operations that respect the condition keeps the balance. -/
theorem Balanced.run {ops : List (Operation κ π ε)} (h : Balanced unset w)
    (hops : Meets ConnectionMoves.next Admissible w ops) :
    Balanced (unset + ops.countP Operation.findsUnset) (run ConnectionMoves.next w ops) := by
  induction ops generalizing w unset with
  | nil => exact h
  | cons op ops ih =>
    have hrest := ih (h.next hops.1) hops.2
    have hcount : (op :: ops).countP Operation.findsUnset =
        op.findsUnset.toNat + ops.countP Operation.findsUnset := by
      rw [List.countP_cons, Nat.add_comm]
      cases op.findsUnset <;> rfl
    rw [hcount, ← Nat.add_assoc]
    exact hrest

/-- **Every connection is returned to its pool once**, unless it is ephemeral, and no
destructor goes through a null pointer. -/
structure ReturnedOnce (w : World κ π) : Prop where
  returned : w.returned.Perm w.loaned
  faults : w.faults = 0

/-- **When moves are safe.**  A connection is never returned to its pool twice or without having
been lent by it, whatever is moved; and no destructor goes through a null pointer if every move
constructor finds the flag of its memory set.  Once all objects are destroyed, every connection has
been returned, and no null pointer followed, if and only if every constructor found it so. -/
theorem moves_safe_iff (pools : π → AdbcConnectionPool) {ops : List (Operation κ π ε)}
    (hops : Meets next Admissible (start pools) ops) :
    ((run next (start pools) ops).returned.Subperm (run next (start pools) ops).loaned ∧
      ((∀ op ∈ ops, op.findsUnset = false) → (run next (start pools) ops).faults = 0)) ∧
    ((run next (start pools) ops).objects = ∅ →
      (ReturnedOnce (run next (start pools) ops) ↔ ∀ op ∈ ops, op.findsUnset = false)) := by
  have hbalanced := (balanced_start pools).run hops
  rw [Nat.zero_add] at hbalanced
  have hnone : (∀ op ∈ ops, op.findsUnset = false) ↔ ops.countP Operation.findsUnset = 0 := by
    rw [List.countP_eq_zero]
    simp only [Bool.not_eq_true]
  refine ⟨⟨?_, fun hset => ?_⟩, fun hempty => ?_⟩
  · exact (List.sublist_append_right _ _).subperm.trans hbalanced.loans.subperm
  · have hfaults := hbalanced.dangling
    rw [hnone.mp hset] at hfaults
    omega
  · have hfaults := hbalanced.dangling
    have hreturned := hbalanced.loans
    rw [hempty, held_empty] at hfaults hreturned
    rw [hnone, ← hfaults, List.length_nil, Nat.zero_add]
    exact ⟨ReturnedOnce.faults, fun hzero => ⟨hreturned, hzero⟩⟩

/-- A pool that may lend one connection. -/
def onePool : Unit → AdbcConnectionPool := fun _ => .new 1

/-- A connection that is moved into a new object, with the flag set or not. -/
def movedOnce (flag : Bool) : List (Operation Nat Unit Unit) :=
  [.getConnection 0 () (.ok 7), .moveConstruct 1 0 flag, .destroy 1, .destroy 0]

/-- With the flag set, the connection is returned once, by the object that it was moved into. -/
theorem moved_with_flag_set : ReturnedOnce (run next (start onePool) (movedOnce true)) :=
  ((moves_safe_iff (ε := Unit) onePool (show Meets next Admissible _ (movedOnce true) by decide)).2
    rfl).mpr (by decide)

/-- With the flag unset, the destructor of the object moved from goes through a null pool. -/
theorem moved_with_flag_unset :
    Meets next Admissible (start onePool) (movedOnce false) ∧
      (run next (start onePool) (movedOnce false)).faults = 1 ∧
      ¬ ReturnedOnce (run next (start onePool) (movedOnce false)) := by
  have hfaults : (run next (start onePool) (movedOnce false)).faults = 1 := by decide
  refine ⟨by decide, hfaults, fun h => ?_⟩
  cases hfaults.symm.trans h.faults

end ConnectionMoves
end AdbcClient
