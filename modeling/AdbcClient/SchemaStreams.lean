import AdbcClient.RemoteSchema
import AdbcClient.Runs
import Mathlib.Data.List.Count

/-!
# The schema of a stream

The extension builds three `ArrowArrayStream`s by hand: the one of a bulk insert, and two
empty ones that create a table.  A driver may call `get_schema` of a stream as often as it
likes, and releases each `ArrowSchema` it received independently of the stream (`adbc.h`).

Behind a stream there is one schema.  The empty streams move it out (`ArrowSchemaMove`), the
stream of an insert copies the struct that points to it (`adbc_insert.cpp`,
`adbc_schema_entry.cpp`).  `Accounted` says where the schema is then, and `get_schema_iff`
that either is right for one call.
-/
namespace AdbcClient
open Runs

/-- A struct `ArrowSchema`: what it points to, and whether `release` is set. -/
structure ArrowSchema where
  columns : List ColumnDefinition
  release : Bool
  deriving DecidableEq, Repr

/-- What `release` does to a struct: it is marked as released. -/
def ArrowSchema.released (schema : ArrowSchema) : ArrowSchema := { schema with release := false }

/-- `ArrowSchemaMove`: the destination has what the source had, and the source is released. -/
def arrowSchemaMove (src : ArrowSchema) : ArrowSchema × ArrowSchema :=
  (src, { src with release := false })

/-- `memcpy`. -/
def arrowSchemaCopy (src : ArrowSchema) : ArrowSchema × ArrowSchema := (src, src)

/-- The streams that the extension builds itself: for an insert, for a `CREATE TABLE AS` and for a
`CREATE TABLE`. -/
inductive HandWrittenStream where
  | insert
  | createTableAs
  | createTable
  deriving DecidableEq, Repr

namespace HandWrittenStream

/-- `get_schema`: what is received, and what the stream is left with. -/
def getSchema : HandWrittenStream → ArrowSchema → ArrowSchema × ArrowSchema
  | insert => arrowSchemaCopy
  | createTableAs => arrowSchemaMove
  | createTable => arrowSchemaMove

/-- Whether the struct of the stream is a `Handle`, whose destructor releases it. -/
def ownsSchema : HandWrittenStream → Bool
  | insert => false
  | createTableAs => true
  | createTable => true

end HandWrittenStream

namespace SchemaStream

/-- A stream, and what the driver has of it. -/
structure World where
  /-- The struct of the stream itself, from which `get_schema` takes what it returns. -/
  source : ArrowSchema
  /-- The structs that the driver has received. -/
  received : List ArrowSchema
  /-- What it found in each of them. -/
  found : List (Option (List ColumnDefinition))
  /-- How often the schema has been released. -/
  releases : Nat
  isOpen : Bool

/-- The calls of the driver.  When the stream is released, the function that has built it
returns. -/
inductive Call where
  | getSchema
  | getNext
  | releaseSchema (i : Nat)
  | releaseStream
  deriving DecidableEq, Repr

/-- A new stream over these columns, which nobody has called yet. -/
def start (columns : List ColumnDefinition) : World := ⟨⟨columns, true⟩, [], [], 0, true⟩

/-- What a struct gives: nothing, if it is released or its schema is. -/
def World.read (w : World) (schema : ArrowSchema) : Option (List ColumnDefinition) :=
  if schema.release ∧ w.releases = 0 then some schema.columns else none

/-- What a call of the driver on the stream, or on a schema that it got, does. -/
def next (k : HandWrittenStream) (w : World) : Call → World
  | .getSchema =>
    let (out, source) := k.getSchema w.source
    { w with source := source, received := w.received ++ [out], found := w.found ++ [w.read out] }
  | .getNext => w
  | .releaseSchema i =>
    { w with
      received := w.received.modify i ArrowSchema.released
      releases := w.releases + 1 }
  | .releaseStream =>
    if k.ownsSchema && w.source.release then
      { w with
        source := w.source.released
        releases := w.releases + 1
        isOpen := false }
    else { w with isOpen := false }

/-- The stream is used until it is released, and structs are released that are not yet. -/
def Admissible (w : World) : Call → Prop
  | .getSchema | .getNext | .releaseStream => w.isOpen = true
  | .releaseSchema i => ∃ schema, w.received[i]? = some schema ∧ schema.release = true

/-- The structs that the driver has still to release. -/
def World.unreleased (w : World) : Nat := w.received.countP ArrowSchema.release

/-- **The contract of `get_schema`**: a live schema with the declared columns in each call,
and none released twice. -/
structure Contract (columns : List ColumnDefinition) (w : World) : Prop where
  live : ∀ schema ∈ w.found, schema = some columns
  once : w.releases ≤ 1

/-- **Where the schema is.**  A copied schema is with every struct that was received and is
not released; a moved one is with one of them, with the stream, or released. -/
structure Accounted (k : HandWrittenStream) (columns : List ColumnDefinition) (w : World) :
    Prop where
  declared : w.source.columns = columns
  copied : k = .insert → w.source.release = true ∧ w.releases + w.unreleased = w.received.length
  moved : k ≠ .insert → w.releases + w.unreleased + w.source.release.toNat = 1
  left : k ≠ .insert → w.isOpen = true → (w.source.release = true ↔ w.received.length = 0)
  first : w.received.length ≤ 1 → ∀ schema ∈ w.found, schema = some columns
  further : k ≠ .insert → 2 ≤ w.received.length → none ∈ w.found

variable {k : HandWrittenStream} {columns : List ColumnDefinition} {w : World}

theorem accounted_start (k : HandWrittenStream) (columns : List ColumnDefinition) :
    Accounted k columns (start columns) where
  declared := rfl
  copied _ := ⟨rfl, rfl⟩
  moved _ := rfl
  left _ _ := iff_of_true rfl rfl
  first _ _ h := by cases h
  further _ h := by simp [start] at h

theorem unreleased_append (l : List ArrowSchema) (schema : ArrowSchema) :
    (l ++ [schema]).countP ArrowSchema.release =
      l.countP ArrowSchema.release + schema.release.toNat := by
  rw [List.countP_append, List.countP_singleton]
  cases schema.release <;> rfl

/-- Releasing a struct leaves one less to release. -/
theorem unreleased_modify {l : List ArrowSchema} {i : Nat} {schema : ArrowSchema}
    (hi : l[i]? = some schema) (hset : schema.release = true) :
    (l.modify i ArrowSchema.released).countP ArrowSchema.release + 1 =
      l.countP ArrowSchema.release := by
  induction l generalizing i with
  | nil => cases hi
  | cons a l ih =>
    cases i with
    | zero =>
      obtain rfl := Option.some.inj hi
      rw [List.modify_zero_cons, List.countP_cons_of_neg (by simp [ArrowSchema.released]),
        List.countP_cons_of_pos hset]
    | succ i =>
      have hrest := ih hi
      rw [List.modify_succ_cons, List.countP_cons, List.countP_cons]
      omega

/-- The first call finds the schema in the stream, as nothing has been moved out of it. -/
theorem Accounted.read_first (h : Accounted k columns w) (hopen : w.isOpen = true)
    (hnone : w.received.length = 0) :
    w.source.release = true ∧ w.read w.source = some columns := by
  have hsource : w.source.release = true ∧ w.releases = 0 := by
    by_cases hk : k = .insert
    · obtain ⟨hset, htotal⟩ := h.copied hk
      exact ⟨hset, by omega⟩
    · have hset := (h.left hk hopen).mpr hnone
      have htotal := h.moved hk
      rw [hset] at htotal
      exact ⟨hset, by simp only [Bool.toNat_true] at htotal; omega⟩
  exact ⟨hsource.1, by rw [World.read, if_pos hsource, h.declared]⟩

/-- What the first call finds is all there is. -/
theorem Accounted.found_first (h : Accounted k columns w) (hopen : w.isOpen = true)
    (hlen : (w.received ++ [w.source]).length ≤ 1) :
    ∀ schema ∈ w.found ++ [w.read w.source], schema = some columns := by
  rw [List.length_append, List.length_singleton] at hlen
  intro schema hschema
  rcases List.mem_append.mp hschema with hfound | hnew
  · exact h.first (by omega) schema hfound
  · rw [List.mem_singleton.mp hnew]
    exact (h.read_first hopen (by omega)).2

theorem getSchema_move (hk : k ≠ .insert) (src : ArrowSchema) :
    k.getSchema src = (src, src.released) := by
  cases k with
  | insert => exact absurd rfl hk
  | createTableAs => rfl
  | createTable => rfl

/-- **`get_schema`** keeps the account of the structs. -/
theorem Accounted.getSchema (h : Accounted k columns w) (hopen : w.isOpen = true) :
    Accounted k columns (next k w .getSchema) := by
  by_cases hk : k = .insert
  · subst hk
    obtain ⟨hset, htotal⟩ := h.copied rfl
    rw [World.unreleased] at htotal
    refine ⟨h.declared, fun _ => ⟨hset, ?_⟩, fun hne => absurd rfl hne, fun hne => absurd rfl hne,
      h.found_first hopen, fun hne => absurd rfl hne⟩
    show w.releases + (w.received ++ [w.source]).countP ArrowSchema.release =
      (w.received ++ [w.source]).length
    rw [unreleased_append, hset, List.length_append, List.length_singleton, Bool.toNat_true]
    omega
  · have hnext : next k w .getSchema =
        { w with
          source := w.source.released
          received := w.received ++ [w.source]
          found := w.found ++ [w.read w.source] } := by
      rw [next, getSchema_move hk]
    rw [hnext]
    refine ⟨h.declared, fun he => absurd he hk, fun _ => ?_, fun _ _ => ?_, h.found_first hopen,
      fun _ hlen => ?_⟩
    · have htotal := h.moved hk
      rw [World.unreleased] at htotal
      show w.releases + (w.received ++ [w.source]).countP ArrowSchema.release + 0 = 1
      rw [unreleased_append]
      omega
    · exact iff_of_false (fun he => by cases he) (by simp)
    · -- nothing is left for a second call
      rw [List.length_append, List.length_singleton] at hlen
      have hleft : w.source.release = false := by
        by_contra hset
        have hnone := (h.left hk hopen).mp (Bool.not_eq_false _ ▸ hset)
        omega
      have hread : w.read w.source = none := if_neg fun hlive => by
        rw [hleft] at hlive
        exact Bool.false_ne_true hlive.1
      exact List.mem_append_right _ (List.mem_singleton.mpr hread.symm)

/-- **Releasing a struct** that the driver has got keeps the account. -/
theorem Accounted.releaseSchema (h : Accounted k columns w) {i : Nat} {schema : ArrowSchema}
    (hi : w.received[i]? = some schema) (hset : schema.release = true) :
    Accounted k columns (next k w (.releaseSchema i)) := by
  have hless : (next k w (.releaseSchema i)).unreleased + 1 = w.unreleased :=
    unreleased_modify hi hset
  have hlen : (next k w (.releaseSchema i)).received.length = w.received.length :=
    List.length_modify ..
  have hreleases : (next k w (.releaseSchema i)).releases = w.releases + 1 := rfl
  refine ⟨h.declared, fun hk => ?_, fun hk => ?_, fun hk hopen => ?_, fun hone => ?_,
    fun hk htwo => ?_⟩
  · obtain ⟨hsource, htotal⟩ := h.copied hk
    exact ⟨hsource, by omega⟩
  · have htotal := h.moved hk
    rw [hreleases]
    show w.releases + 1 + _ + w.source.release.toNat = 1
    omega
  · rw [hlen]
    exact h.left hk hopen
  · rw [hlen] at hone
    exact h.first hone
  · rw [hlen] at htwo
    exact h.further hk htwo

/-- **The end of the stream** keeps the account. -/
theorem Accounted.releaseStream (h : Accounted k columns w) :
    Accounted k columns (next k w .releaseStream) := by
  have hclosed : Accounted k columns { w with isOpen := false } :=
    ⟨h.declared, h.copied, h.moved, fun _ hopen => (by cases hopen), h.first, h.further⟩
  rw [next]
  split
  · rename_i howned
    obtain ⟨hk, hset⟩ := Bool.and_eq_true_iff.mp howned
    have hne : k ≠ .insert := by
      rintro rfl
      cases hk
    refine ⟨h.declared, fun he => absurd he hne, fun _ => ?_, fun _ hopen => (by cases hopen),
      h.first, h.further⟩
    have htotal := h.moved hne
    rw [hset, Bool.toNat_true] at htotal
    show w.releases + 1 + w.unreleased + 0 = 1
    omega
  · exact hclosed

/-- **One call** of the driver keeps the account of the structs. -/
theorem Accounted.next (h : Accounted k columns w) {call : Call} (hcall : Admissible w call) :
    Accounted k columns (next k w call) := by
  cases call with
  | getSchema => exact h.getSchema hcall
  | getNext => exact h
  | releaseStream => exact h.releaseStream
  | releaseSchema i =>
    obtain ⟨schema, hi, hset⟩ := hcall
    exact h.releaseSchema hi hset

/-- **A run** of calls keeps the account of the structs. -/
theorem Accounted.run {calls : List Call} (h : Accounted k columns w)
    (hcalls : Meets (SchemaStream.next k) Admissible w calls) :
    Accounted k columns (run (SchemaStream.next k) w calls) ∧
      (run (SchemaStream.next k) w calls).received.length =
        w.received.length + calls.count .getSchema := by
  induction calls generalizing w with
  | nil => exact ⟨h, rfl⟩
  | cons call calls ih =>
    obtain ⟨hcall, hrest⟩ := hcalls
    obtain ⟨hfinal, hlen⟩ := ih (h.next hcall) hrest
    refine ⟨hfinal, hlen.trans ?_⟩
    cases call with
    | getSchema =>
      rw [List.count_cons_self]
      show (w.received ++ [_]).length + _ = _
      rw [List.length_append, List.length_singleton]
      omega
    | getNext => rw [List.count_cons_of_ne (by decide)]; rfl
    | releaseStream =>
      rw [List.count_cons_of_ne (by decide), SchemaStream.next]
      split <;> rfl
    | releaseSchema i =>
      rw [List.count_cons_of_ne (by simp)]
      show (w.received.modify i _).length + _ = _
      rw [List.length_modify]

/-- **When the contract is kept.**  A driver that releases every struct it has received has found a
live schema with the declared columns in each of them, and has released no schema twice, if and only
if it has called `get_schema` at most once, whichever of the hand-written streams it has. -/
theorem get_schema_iff (k : HandWrittenStream) (columns : List ColumnDefinition)
    {calls : List Call} (hcalls : Meets (next k) Admissible (start columns) calls)
    (hreleased : ∀ schema ∈ (run (next k) (start columns) calls).received,
      schema.release = false) :
    Contract columns (run (next k) (start columns) calls) ↔ calls.count .getSchema ≤ 1 := by
  obtain ⟨h, hlen⟩ := (accounted_start k columns).run hcalls
  have hcount : (run (next k) (start columns) calls).received.length = calls.count .getSchema := by
    rw [hlen]
    exact Nat.zero_add _
  have hnone : (run (next k) (start columns) calls).unreleased = 0 :=
    List.countP_eq_zero.mpr fun schema hschema => by simp [hreleased schema hschema]
  rw [← hcount]
  by_cases hk : k = .insert
  · obtain ⟨-, htotal⟩ := h.copied hk
    constructor
    · intro hcontract
      have honce := hcontract.once
      omega
    · exact fun hone => ⟨h.first hone, by omega⟩
  · have htotal := h.moved hk
    constructor
    · intro hcontract
      by_contra hmany
      cases hcontract.live none (h.further hk (by omega))
    · exact fun hone => ⟨h.first hone, by omega⟩

/-- A driver that asks once, and releases the schema before the stream: the contract is kept. -/
theorem one_call_kept : Contract [⟨"a", ⟨"INTEGER"⟩⟩] (run (next .insert)
    (start [⟨"a", ⟨"INTEGER"⟩⟩]) [.getSchema, .getNext, .releaseStream, .releaseSchema 0]) := by
  refine (@get_schema_iff .insert _ [.getSchema, .getNext, .releaseStream, .releaseSchema 0]
    ⟨rfl, rfl, rfl, ⟨_, rfl, rfl⟩, trivial⟩ ?_).mpr (by decide)
  decide

/-- A driver that asks twice: the two structs of an insert are one schema, which is released
twice, and the second struct of a new table is released already. -/
theorem two_calls_broken :
    (Meets (next .insert) Admissible (start [])
        [.getSchema, .getSchema, .releaseSchema 0, .releaseSchema 1] ∧
      ¬ Contract [] (run (next .insert) (start [])
        [.getSchema, .getSchema, .releaseSchema 0, .releaseSchema 1])) ∧
    Meets (next .createTable) Admissible (start []) [.getSchema, .getSchema, .releaseSchema 0] ∧
      ¬ Contract [] (run (next .createTable) (start [])
        [.getSchema, .getSchema, .releaseSchema 0]) := by
  refine ⟨⟨⟨rfl, rfl, ⟨_, rfl, rfl⟩, ⟨_, rfl, rfl⟩, trivial⟩, fun h => ?_⟩,
    ⟨rfl, rfl, ⟨_, rfl, rfl⟩, trivial⟩, fun h => ?_⟩
  · exact absurd h.once (by decide)
  · cases h.live none (by decide)

end SchemaStream
end AdbcClient
