import AdbcClient.SchemaEntry
import Mathlib.Logic.Relation

/-!
# Planning writes

`PlanInsert` and `PlanCreateTableAs` put an `AdbcInsert` on top of the plan that
produces its input (`adbc_catalog.cpp`).  Unless `adbc_mix_reads_writes` is set they
refuse an input that itself reads through the extension, which is what
`ContainsAdbcReads` looks for.

An operator of DuckDB has a list of children, and may own sub-plans that are
executed with it but are not in the list: the inner join of a delim join, the scans
of a positional scan.  `GetChildren()` reports both.  `ContainsAdbcReads` follows the
list only, so the guard is complete exactly for plans in which every read has one
beside it that the list leads to (`guardComplete_iff`).
-/
namespace AdbcClient

/-- `InsertMode`. -/
inductive InsertMode where
  | append
  | ctas
  deriving DecidableEq, Repr

/-- What an `AdbcInsert` is constructed from: the columns, the names of table and schema, and the
mode. -/
structure AdbcInsert where
  columnTypes : List LogicalType
  columnNames : List String
  tableName : String
  schemaName : String
  insertMode : InsertMode
  deriving DecidableEq, Repr

/-- The type of a physical operator, with what is read from it. -/
inductive OperatorKind where
  | tableScan (function : String)
  | leftDelimJoin
  | rightDelimJoin
  | positionalScan
  | adbcInsert (insert : AdbcInsert)
  | other (name : String)
  deriving DecidableEq, Repr

/-- `PhysicalOperator`: its `children`, and the sub-plans it owns besides. -/
inductive PhysicalOperator where
  | mk (kind : OperatorKind) (children owned : List PhysicalOperator)

namespace PhysicalOperator

def kind : PhysicalOperator → OperatorKind
  | mk kind _ _ => kind

def children : PhysicalOperator → List PhysicalOperator
  | mk _ children _ => children

/-- `GetChildren()`. -/
def getChildren : PhysicalOperator → List PhysicalOperator
  | mk _ children owned => children ++ owned

end PhysicalOperator

open PhysicalOperator

/-- A table scan whose function is `read_adbc`. -/
def isAdbcRead : OperatorKind → Bool
  | .tableScan function => function == "read_adbc"
  | _ => false

mutual

/-- `ContainsAdbcReads`. -/
def containsAdbcReads : PhysicalOperator → Bool
  | .mk kind children _ => if isAdbcRead kind then true else anyContainsAdbcReads children

/-- The loop of `ContainsAdbcReads` over the children. -/
def anyContainsAdbcReads : List PhysicalOperator → Bool
  | [] => false
  | child :: children =>
    if containsAdbcReads child then true else anyContainsAdbcReads children

end

/-! ## The two planners -/

/-- What a planner can throw.  `internal` is a bounds check of DuckDB. -/
inductive PlanError where
  | binder (message : String)
  | notImplemented (message : String)
  | internal
  deriving DecidableEq, Repr

/-- `OnConflictAction`. -/
inductive OnConflictAction where
  | throw
  | nothing
  | update
  | replace
  deriving DecidableEq, Repr

/-- What `PlanInsert` reads of a `LogicalInsert`.  An `INVALID_INDEX` in the column map
is `none`. -/
structure LogicalInsert where
  returnChunk : Bool
  onConflict : OnConflictAction
  schema : String
  table : RemoteTable
  columnIndexMap : List (Option Nat)
  deriving DecidableEq, Repr

/-- The text of the exception for a statement that mixes reads and writes. -/
def mixMessage (statement command : String) : String :=
  "This " ++ statement ++ " statement mixes ADBC reads and writes, which may cause " ++
    "concurrency issues " ++
    "depending on the underlying DBMS's transaction isolation level.\n" ++
    "If the reads and writes target different DBMSs, this is likely " ++
    "safe; " ++
    "if they target the same DBMS, consistency depends on that " ++
    "DBMS's isolation guarantees.\n" ++
    "If you believe this " ++ command ++ " is safe, turn off this check by running " ++
    "\"SET adbc_mix_reads_writes = true;\""

/-- The first loop of the remapping: which column is at each position of the input,
and how many are.  DuckDB's vectors check their bounds, so an index outside is an
internal error. -/
def invertColumnMap (size : Nat) :
    List (Option Nat) → Nat → List (Option Nat) → Nat → Option (List (Option Nat) × Nat)
  | [], _, columnIndexes, columnCount => some (columnIndexes, columnCount)
  | none :: rest, c, columnIndexes, columnCount =>
    invertColumnMap size rest (c + 1) columnIndexes columnCount
  | some mappedIndex :: rest, c, columnIndexes, columnCount =>
    if mappedIndex < size then
      invertColumnMap size rest (c + 1) (columnIndexes.set mappedIndex (some c)) (columnCount + 1)
    else none

/-- `columns.GetColumn(column_indexes[c])`. -/
def getColumn (columns : List ColumnDefinition) (columnIndexes : List (Option Nat)) (c : Nat) :
    Option ColumnDefinition := do
  let index ← columnIndexes[c]?
  columns[← index]?

/-- The columns an insert writes, in the order of its input. -/
def remapColumns (columns : List ColumnDefinition) (columnIndexMap : List (Option Nat)) :
    Option (List ColumnDefinition) :=
  if columnIndexMap.isEmpty then some columns
  else do
    let (columnIndexes, columnCount) ←
      invertColumnMap columns.length columnIndexMap 0 (List.replicate columns.length none) 0
    (List.range columnCount).mapM (getColumn columns columnIndexes)

/-- The operator that both planners return, with the source of its rows as the only child. -/
def makeInsert (columns : List ColumnDefinition) (tableName internalSchema : String)
    (mode : InsertMode) (plan : PhysicalOperator) : PhysicalOperator :=
  .mk (.adbcInsert ⟨columns.map ColumnDefinition.type, columns.map ColumnDefinition.name, tableName,
    internalSchema, mode⟩) [plan] []

/-- `PlanInsert`. -/
def planInsert (canMixReadsWrites noSchemas : Bool) (op : LogicalInsert)
    (plan : PhysicalOperator) : Except PlanError PhysicalOperator :=
  if op.returnChunk then
    .error (.binder "RETURNING clause not yet supported for INSERTs into an ADBC table")
  else if op.onConflict ≠ .throw then
    .error (.binder "ON CONFLICT clause not yet supported for INSERTs into ADBC table")
  else if containsAdbcReads plan && !canMixReadsWrites then
    .error (.notImplemented (mixMessage "INSERT" "INSERT"))
  else
    match remapColumns op.table.columns op.columnIndexMap with
    | none => .error .internal
    | some columns =>
      .ok (makeInsert columns op.table.name (getInternalSchemaName noSchemas op.schema)
        .append plan)

/-- `PlanCreateTableAs`.  `schema` is the entry of the schema it creates the table in. -/
def planCreateTableAs (canMixReadsWrites noSchemas : Bool) (info : CreateTableInfo)
    (plan : PhysicalOperator) (schema : AdbcSchemaEntry) :
    Except PlanError PhysicalOperator × AdbcSchemaEntry :=
  if info.onConflict ≠ .errorOnConflict then
    (.error (.binder ("CREATE TABLE commands not yet supported with IF NOT " ++
      "EXISTS or REPLACE with the ADBC extension")), schema)
  else if containsAdbcReads plan && !canMixReadsWrites then
    (.error (.notImplemented (mixMessage "CREATE TABLE AS (SELECT ...)" "CREATE TABLE")), schema)
  else
    (.ok (makeInsert info.table.columns info.table.name
      (getInternalSchemaName noSchemas info.schema) .ctas plan), schema.lazyLoadNewTables)

/-! ## What the guard sees -/

/-- Some operator of the plan that `links` lead to is an ADBC read. -/
def ReachesRead (links : PhysicalOperator → List PhysicalOperator) (plan : PhysicalOperator) :
    Prop :=
  ∃ op, Relation.ReflTransGen (fun p q => q ∈ links p) plan op ∧ isAdbcRead op.kind = true

/-- A plan reaches a read if it is one, or one of its links does. -/
theorem reachesRead_iff {links : PhysicalOperator → List PhysicalOperator}
    {plan : PhysicalOperator} :
    ReachesRead links plan ↔
      isAdbcRead plan.kind = true ∨ ∃ child ∈ links plan, ReachesRead links child := by
  constructor
  · rintro ⟨op, hreach, hread⟩
    rcases Relation.ReflTransGen.cases_head hreach with rfl | ⟨child, hchild, hrest⟩
    · exact .inl hread
    · exact .inr ⟨child, hchild, op, hrest, hread⟩
  · rintro (hread | ⟨child, hchild, op, hreach, hread⟩)
    · exact ⟨plan, .refl, hread⟩
    · exact ⟨op, .head hchild hreach, hread⟩

theorem ReachesRead.mono {links links' : PhysicalOperator → List PhysicalOperator}
    (h : ∀ p, links p ⊆ links' p) {plan : PhysicalOperator} (hr : ReachesRead links plan) :
    ReachesRead links' plan := by
  obtain ⟨op, hreach, hread⟩ := hr
  exact ⟨op, Relation.ReflTransGen.mono (fun p _ hq => h p hq) _ _ hreach, hread⟩

theorem children_subset_getChildren (p : PhysicalOperator) : p.children ⊆ p.getChildren := by
  obtain ⟨kind, children, owned⟩ := p
  exact List.subset_append_left children owned

mutual

/-- **What `ContainsAdbcReads` finds**: the reads that the lists of children lead to. -/
theorem containsAdbcReads_iff : ∀ plan : PhysicalOperator,
    containsAdbcReads plan = true ↔ ReachesRead children plan
  | .mk kind children owned => by
    have hchildren := anyContainsAdbcReads_iff children
    rw [containsAdbcReads, reachesRead_iff]
    cases hread : isAdbcRead kind with
    | true => exact iff_of_true rfl (.inl hread)
    | false =>
      rw [if_neg Bool.false_ne_true, hchildren]
      exact ⟨.inr, fun h => h.resolve_left (by simp [PhysicalOperator.kind, hread])⟩

theorem anyContainsAdbcReads_iff : ∀ plans : List PhysicalOperator,
    anyContainsAdbcReads plans = true ↔ ∃ plan ∈ plans, ReachesRead children plan
  | [] => by simp [anyContainsAdbcReads]
  | plan :: plans => by
    have hplan := containsAdbcReads_iff plan
    have hplans := anyContainsAdbcReads_iff plans
    rw [anyContainsAdbcReads]
    simp only [List.exists_mem_cons_iff, ← hplan, ← hplans]
    cases containsAdbcReads plan <;> simp

end

/-- **What `PlanInsert` does** with mixing turned off. -/
theorem planInsert_cases (noSchemas : Bool) (op : LogicalInsert) (plan : PhysicalOperator) :
    (∃ message, planInsert false noSchemas op plan = .error (.binder message)) ∨
    (containsAdbcReads plan = true ∧ planInsert false noSchemas op plan =
      .error (.notImplemented (mixMessage "INSERT" "INSERT"))) ∨
    (containsAdbcReads plan = false ∧ (planInsert false noSchemas op plan = .error .internal ∨
      ∃ columns, planInsert false noSchemas op plan = .ok (makeInsert columns op.table.name
        (getInternalSchemaName noSchemas op.schema) .append plan))) := by
  rw [planInsert]
  by_cases hreturning : op.returnChunk
  · exact .inl ⟨_, if_pos hreturning⟩
  rw [if_neg hreturning]
  by_cases hconflict : op.onConflict ≠ .throw
  · exact .inl ⟨_, if_pos hconflict⟩
  rw [if_neg hconflict]
  cases hreads : containsAdbcReads plan with
  | true => exact .inr (.inl ⟨rfl, rfl⟩)
  | false =>
    refine .inr (.inr ⟨rfl, ?_⟩)
    cases hcolumns : remapColumns op.table.columns op.columnIndexMap with
    | none => exact .inl rfl
    | some columns => exact .inr ⟨columns, rfl⟩

/-- **What `PlanCreateTableAs` does** with mixing turned off. -/
theorem planCreateTableAs_cases (noSchemas : Bool) (info : CreateTableInfo)
    (plan : PhysicalOperator) (schema : AdbcSchemaEntry) :
    (∃ message, planCreateTableAs false noSchemas info plan schema =
      (.error (.binder message), schema)) ∨
    (containsAdbcReads plan = true ∧ planCreateTableAs false noSchemas info plan schema =
      (.error (.notImplemented (mixMessage "CREATE TABLE AS (SELECT ...)" "CREATE TABLE")),
        schema)) ∨
    (containsAdbcReads plan = false ∧ planCreateTableAs false noSchemas info plan schema =
      (.ok (makeInsert info.table.columns info.table.name
        (getInternalSchemaName noSchemas info.schema) .ctas plan), schema.lazyLoadNewTables)) := by
  rw [planCreateTableAs]
  by_cases hconflict : info.onConflict ≠ .errorOnConflict
  · exact .inl ⟨_, if_pos hconflict⟩
  rw [if_neg hconflict]
  cases hreads : containsAdbcReads plan with
  | true => exact .inr (.inl ⟨rfl, rfl⟩)
  | false => exact .inr (.inr ⟨rfl, rfl⟩)

/-! ## The guard -/

/-- **The guard is complete for a plan**: the search finds a read exactly if one is
executed with the plan, and with mixing turned off both planners return an operator
only over an input without reads, and complain about reads only if there are some. -/
structure GuardComplete (plan : PhysicalOperator) : Prop where
  containsReads : containsAdbcReads plan = true ↔ ReachesRead getChildren plan
  insertAccepts : ∀ noSchemas op result, planInsert false noSchemas op plan = .ok result →
    ∀ input ∈ result.children, ¬ ReachesRead getChildren input
  insertRejects : ∀ noSchemas op message,
    planInsert false noSchemas op plan = .error (.notImplemented message) →
    ReachesRead getChildren plan
  createAccepts : ∀ noSchemas info schema result,
    (planCreateTableAs false noSchemas info plan schema).1 = .ok result →
    ∀ input ∈ result.children, ¬ ReachesRead getChildren input
  createRejects : ∀ noSchemas info schema message,
    (planCreateTableAs false noSchemas info plan schema).1 = .error (.notImplemented message) →
    ReachesRead getChildren plan

/-- An exact search makes an exact guard. -/
theorem GuardComplete.of_containsReads {plan : PhysicalOperator}
    (h : containsAdbcReads plan = true ↔ ReachesRead getChildren plan) : GuardComplete plan := by
  have hfree : containsAdbcReads plan = false → ¬ ReachesRead getChildren plan := by
    intro hf hr
    rw [h.mpr hr] at hf
    cases hf
  constructor
  · exact h
  · intro noSchemas op result hok input hinput
    rcases planInsert_cases noSchemas op plan with
      ⟨_, he⟩ | ⟨_, he⟩ | ⟨hf, he | ⟨columns, he⟩⟩
    · cases hok.symm.trans he
    · cases hok.symm.trans he
    · cases hok.symm.trans he
    · obtain rfl := Except.ok.inj (hok.symm.trans he)
      obtain rfl := List.mem_singleton.mp hinput
      exact hfree hf
  · intro noSchemas op message herror
    rcases planInsert_cases noSchemas op plan with
      ⟨_, he⟩ | ⟨ht, _⟩ | ⟨_, he | ⟨columns, he⟩⟩
    · cases herror.symm.trans he
    · exact h.mp ht
    · cases herror.symm.trans he
    · cases herror.symm.trans he
  · intro noSchemas info schema result hok input hinput
    rcases planCreateTableAs_cases noSchemas info plan schema with
      ⟨_, he⟩ | ⟨_, he⟩ | ⟨hf, he⟩ <;> rw [he] at hok
    · cases hok
    · cases hok
    · obtain rfl := Except.ok.inj hok
      obtain rfl := List.mem_singleton.mp hinput
      exact hfree hf
  · intro noSchemas info schema message herror
    rcases planCreateTableAs_cases noSchemas info plan schema with
      ⟨_, he⟩ | ⟨ht, _⟩ | ⟨_, he⟩
    · rw [he] at herror
      cases herror
    · exact h.mp ht
    · rw [he] at herror
      cases herror

/-- **When the guard is complete.**  The search for reads, and with it the two planners, are right
about the reads of a plan if and only if a plan with a read anywhere has one that the lists of
children lead to, which is where the search looks. -/
theorem guardComplete_iff (plan : PhysicalOperator) :
    GuardComplete plan ↔ (ReachesRead getChildren plan → ReachesRead children plan) := by
  have hsearch := containsAdbcReads_iff plan
  constructor
  · intro h hr
    exact hsearch.mp (h.containsReads.mpr hr)
  · intro h
    refine GuardComplete.of_containsReads ⟨fun ht => ?_, fun hr => hsearch.mpr (h hr)⟩
    exact (hsearch.mp ht).mono children_subset_getChildren

/-- A correlated subquery that reads through the extension: the read is in the join that
the delim join owns. -/
def correlatedRead : PhysicalOperator :=
  .mk .leftDelimJoin [.mk (.tableScan "seq_scan") [] []]
    [.mk (.other "HASH_JOIN") [.mk (.tableScan "read_adbc") [] []] []]

/-- The read in the join that a delim join owns is part of the plan, and the check does not come to
it. -/
theorem correlatedRead_unguarded : ¬ GuardComplete correlatedRead := by
  intro h
  have hreads : ReachesRead getChildren correlatedRead := by
    refine ⟨.mk (.tableScan "read_adbc") [] [], ?_, by decide⟩
    refine .head (b := .mk (.other "HASH_JOIN") [.mk (.tableScan "read_adbc") [] []] []) ?_ ?_
    · simp [correlatedRead, getChildren]
    · exact .single (by simp [getChildren])
  exact Bool.false_ne_true (h.containsReads.mpr hreads)

end AdbcClient
