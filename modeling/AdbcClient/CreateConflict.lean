import AdbcClient.SchemaEntry

/-!
# Conflicts of CREATE TABLE

`AdbcSchemaEntry::CreateTable` looks at the conflict mode of a statement once, to refuse
`OR REPLACE`.  After that a table that exists is an error, whether it is found in the
cache or by the driver, which refuses to create it (`adbc_schema_entry.cpp`).

`createTable_honours_iff` says when the statement does what its mode asks for.  A
statement that throws changes nothing, at whichever of its driver calls that is
(`createTable_throws`).
-/
namespace AdbcClient

/-- The driver calls of an ingest, each of which may fail with a message. -/
structure StatementDriver where
  statementNew : Except String Unit
  setOption : String → String → Except String Unit
  bindStream : Except String Unit
  executeQuery : RemoteSchema → RemoteTable → Except String RemoteSchema

namespace StatementDriver

/-- `ADBC_INGEST_OPTION_TARGET_DB_SCHEMA`. -/
def targetDbSchema : String := "adbc.ingest.target_db_schema"

/-- `ADBC_INGEST_OPTION_TARGET_TABLE`. -/
def targetTable : String := "adbc.ingest.target_table"

/-- The target schema is set if there is one. -/
def setSchema (d : StatementDriver) (schema : String) : Except String Unit :=
  if schema ≠ "" then d.setOption targetDbSchema schema else .ok ()

/-- The ingest of `CreateTable`.  It leaves the mode to the default, which is to create. -/
def ingest (d : StatementDriver) : Ingest := fun remote schema table => do
  d.statementNew
  d.setSchema schema
  d.setOption targetTable table.name
  d.bindStream
  d.executeQuery remote table

/-- What `adbc.h` says of the default mode: the table is created, and it is an error if it
exists. -/
def CreateMode (d : StatementDriver) : Prop :=
  ∀ R t R', d.executeQuery R t = .ok R' → R.create t = some R'

theorem of_bind_eq_ok {α β : Type} {x : Except String α} {f : α → Except String β} {b : β}
    (h : (x >>= f) = .ok b) : ∃ a, f a = .ok b := by
  cases x with
  | error e => cases h
  | ok a => exact ⟨a, h⟩

/-- An ingest that succeeds has created its table. -/
theorem CreateMode.create_of_ingest {d : StatementDriver} (hd : d.CreateMode)
    {R R' : RemoteSchema} {schema : String} {t : RemoteTable} (h : d.ingest R schema t = .ok R') :
    R.create t = some R' := by
  obtain ⟨-, h⟩ := of_bind_eq_ok h
  obtain ⟨-, h⟩ := of_bind_eq_ok h
  obtain ⟨-, h⟩ := of_bind_eq_ok h
  obtain ⟨-, h⟩ := of_bind_eq_ok h
  exact hd R t R' h

end StatementDriver

namespace AdbcSchemaEntry

section Throws
variable {noSchemas : Bool} {ingest : Ingest} {bind : RemoteSchema → BindTable}
  {info : CreateTableInfo} {s : AdbcSchemaEntry} {R : RemoteSchema}

/-- **What `CreateTable` can do**: refuse the mode, find the table cached, fail at a driver
call, or create the table, which clears the flag for the lookup and sets it. -/
theorem createTable_cases (noSchemas : Bool) (ingest : Ingest) (bind : RemoteSchema → BindTable)
    (info : CreateTableInfo) (s : AdbcSchemaEntry) (R : RemoteSchema) :
    (info.onConflict = .replaceOnConflict ∧ ∃ e,
      s.createTable noSchemas ingest bind info R = (.error e, s, R)) ∨
    (info.onConflict ≠ .replaceOnConflict ∧ lower info.table.name ∈ s.ownedTables ∧
      s.createTable noSchemas ingest bind info R =
        (.error (.entryAlreadyExists .tableEntry info.table.name), s, R)) ∨
    (info.onConflict ≠ .replaceOnConflict ∧ lower info.table.name ∉ s.ownedTables ∧ ∃ message,
      ingest R (getInternalSchemaName noSchemas info.schema) info.table = .error message ∧
        s.createTable noSchemas ingest bind info R = (.error (.io message), s, R)) ∨
    (info.onConflict ≠ .replaceOnConflict ∧ lower info.table.name ∉ s.ownedTables ∧ ∃ R',
      ingest R (getInternalSchemaName noSchemas info.schema) info.table = .ok R' ∧
        s.createTable noSchemas ingest bind info R =
          (.ok ((bind R' info.table.name).map (AdbcTableEntry.mk info.table.name)),
            { s with
              ownedTables := (bind R' info.table.name).elim s.ownedTables fun columns =>
                s.ownedTables.insert (lower info.table.name) ⟨info.table.name, columns⟩
              tablesLoaded := true }, R')) := by
  by_cases hreplace : info.onConflict = .replaceOnConflict
  · exact .inl ⟨hreplace, _, by rw [createTable, if_pos hreplace]⟩
  by_cases hcached : lower info.table.name ∈ s.ownedTables
  · have hsome := AList.lookup_isSome.mpr hcached
    exact .inr (.inl ⟨hreplace, hcached, by rw [createTable, if_neg hreplace, if_pos hsome]⟩)
  have hnone := AList.lookup_eq_none.mpr hcached
  cases hingest : ingest R (getInternalSchemaName noSchemas info.schema) info.table with
  | error message =>
    refine .inr (.inr (.inl ⟨hreplace, hcached, message, rfl, ?_⟩))
    simp [createTable, hreplace, hnone, hingest]
  | ok R' =>
    refine .inr (.inr (.inr ⟨hreplace, hcached, R', rfl, ?_⟩))
    cases hbind : bind R' info.table.name <;>
      simp [createTable, hreplace, hnone, hingest, getOrCreateTableEntryInternal, hbind]

/-- **A statement that throws changes nothing**, neither the cache nor the remote. -/
theorem createTable_throws {e : CreateTableError}
    (h : (s.createTable noSchemas ingest bind info R).1 = .error e) :
    (s.createTable noSchemas ingest bind info R).2 = (s, R) := by
  rcases createTable_cases noSchemas ingest bind info s R with
    ⟨-, _, he⟩ | ⟨-, -, he⟩ | ⟨-, -, _, -, he⟩ | ⟨-, -, _, -, he⟩
  · rw [he]
  · rw [he]
  · rw [he]
  · rw [he] at h
    cases h

end Throws

/-! ## The conflict modes -/

/-- A `CREATE TABLE` statement ends with an exception, of whatever kind. -/
def Throws (result : Except CreateTableError (Option AdbcTableEntry) × AdbcSchemaEntry ×
    RemoteSchema) : Prop :=
  ∃ e, result.1 = .error e

/-- What a statement with this conflict mode is to do for a table. -/
def ModeHonoured (t : RemoteTable) (R : RemoteSchema)
    (result : Except CreateTableError (Option AdbcTableEntry) × AdbcSchemaEntry × RemoteSchema) :
    OnCreateConflict → Prop
  | .errorOnConflict =>
    (Throws result ↔ (R.resolve t.name).isSome) ∧
      (R.resolve t.name = none → ∃ R', R.create t = some R' ∧
        result.1 = .ok (some ⟨t.name, t.columns⟩) ∧ result.2.2 = R')
  | .ignoreOnConflict => (R.resolve t.name).isSome → ¬ Throws result ∧ result.2.2 = R
  | .replaceOnConflict => Throws result
  | .alterOnConflict => True

/-- **The statement does what its mode asks for**, on a remote in which `d` creates tables,
and changes nothing if it throws. -/
structure HonoursConflict (noSchemas : Bool) (d : StatementDriver) (info : CreateTableInfo)
    (s : AdbcSchemaEntry) (R : RemoteSchema) : Prop where
  mode : ModeHonoured info.table R
    (s.createTable noSchemas d.ingest RemoteSchema.bind info R) info.onConflict
  atomic : Throws (s.createTable noSchemas d.ingest RemoteSchema.bind info R) →
    (s.createTable noSchemas d.ingest RemoteSchema.bind info R).2 = (s, R)

section Honours
variable {noSchemas : Bool} {d : StatementDriver} {info : CreateTableInfo} {s : AdbcSchemaEntry}
  {R : RemoteSchema}

/-- The driver accepts the ingest that creates the table, in the remote schema as it is. -/
def Accepts (noSchemas : Bool) (d : StatementDriver) (info : CreateTableInfo) (R : RemoteSchema) :
    Prop :=
  ∃ R', d.ingest R (getInternalSchemaName noSchemas info.schema) info.table = .ok R'

/-- A statement whose table exists throws, whatever its mode. -/
theorem throws_of_existing (hd : d.CreateMode) (hexists : (R.resolve info.table.name).isSome) :
    Throws (s.createTable noSchemas d.ingest RemoteSchema.bind info R) := by
  rcases createTable_cases noSchemas d.ingest RemoteSchema.bind info s R with
    ⟨-, e, he⟩ | ⟨-, -, he⟩ | ⟨-, -, message, -, he⟩ | ⟨-, -, R', hingest, -⟩
  · exact ⟨e, by rw [he]⟩
  · exact ⟨_, by rw [he]⟩
  · exact ⟨_, by rw [he]⟩
  · obtain ⟨hnone, -⟩ := RemoteSchema.create_cases (hd.create_of_ingest hingest)
    rw [hnone] at hexists
    cases hexists

/-- **A statement that goes through** finds nothing cached under the name, has the driver
create the table, and returns its entry. -/
theorem createTable_ok_iff (hd : d.CreateMode) (hmode : info.onConflict ≠ .replaceOnConflict) :
    (lower info.table.name ∉ s.ownedTables ∧ Accepts noSchemas d info R) ↔
      ∃ R', R.create info.table = some R' ∧
        (s.createTable noSchemas d.ingest RemoteSchema.bind info R).1 =
          .ok (some ⟨info.table.name, info.table.columns⟩) ∧
        (s.createTable noSchemas d.ingest RemoteSchema.bind info R).2.2 = R' := by
  rcases createTable_cases noSchemas d.ingest RemoteSchema.bind info s R with
    ⟨hreplace, -⟩ | ⟨-, hk, he⟩ | ⟨-, -, message, hfails, he⟩ | ⟨-, hk, R', hingest, he⟩
  · exact absurd hreplace hmode
  · refine iff_of_false (fun h => h.1 hk) ?_
    rintro ⟨R', -, hentry, -⟩
    rw [he] at hentry
    cases hentry
  · refine iff_of_false ?_ ?_
    · rintro ⟨-, R', hingest⟩
      cases hfails.symm.trans hingest
    · rintro ⟨R', -, hentry, -⟩
      rw [he] at hentry
      cases hentry
  · have hcreate := hd.create_of_ingest hingest
    have hbind : R'.bind info.table.name = some info.table.columns := by
      rw [RemoteSchema.bind, RemoteSchema.resolve_created hcreate, Option.map_some]
    refine iff_of_true ⟨hk, R', hingest⟩ ⟨R', hcreate, ?_, by rw [he]⟩
    rw [he, hbind]
    rfl

/-- Without a qualifier: nothing else may make the statement fail. -/
theorem errorOnConflict_iff (hd : d.CreateMode) (hmode : info.onConflict ≠ .replaceOnConflict) :
    ModeHonoured info.table R (s.createTable noSchemas d.ingest RemoteSchema.bind info R)
        .errorOnConflict ↔
      (R.resolve info.table.name = none →
        lower info.table.name ∉ s.ownedTables ∧ Accepts noSchemas d info R) := by
  rw [createTable_ok_iff hd hmode]
  constructor
  · exact fun h => h.2
  · refine fun hcreates => ⟨⟨?_, throws_of_existing hd⟩, hcreates⟩
    rintro ⟨e, he⟩
    cases hr : R.resolve info.table.name with
    | some t => rfl
    | none =>
      obtain ⟨R', -, hentry, -⟩ := hcreates hr
      cases he.symm.trans hentry

/-- With `IF NOT EXISTS`: an existing table is an error all the same. -/
theorem ignoreOnConflict_iff (hd : d.CreateMode) :
    ModeHonoured info.table R (s.createTable noSchemas d.ingest RemoteSchema.bind info R)
        .ignoreOnConflict ↔ R.resolve info.table.name = none := by
  constructor
  · intro h
    cases hr : R.resolve info.table.name with
    | none => rfl
    | some t =>
      have hexists : (R.resolve info.table.name).isSome := by rw [hr]; rfl
      exact absurd (throws_of_existing hd hexists) (h hexists).1
  · intro hnone hexists
    rw [hnone] at hexists
    cases hexists

/-- **When a statement honours its conflict mode.**  `CREATE TABLE` does if a table of the name is
the only reason for it to fail: that is, if there is one already, or if the name is not cached in
any spelling and the driver accepts the table.  `CREATE TABLE IF NOT EXISTS` does only if the table
does not exist, and `CREATE OR REPLACE TABLE` always. -/
theorem createTable_honours_iff (noSchemas : Bool) {d : StatementDriver} (hd : d.CreateMode)
    (info : CreateTableInfo) (s : AdbcSchemaEntry) (R : RemoteSchema) :
    HonoursConflict noSchemas d info s R ↔
      match info.onConflict with
      | .errorOnConflict => R.resolve info.table.name = none →
        lower info.table.name ∉ s.ownedTables ∧ Accepts noSchemas d info R
      | .ignoreOnConflict => R.resolve info.table.name = none
      | .replaceOnConflict | .alterOnConflict => True := by
  have hatomic : Throws (s.createTable noSchemas d.ingest RemoteSchema.bind info R) →
      (s.createTable noSchemas d.ingest RemoteSchema.bind info R).2 = (s, R) := by
    rintro ⟨e, he⟩
    exact createTable_throws he
  have hmode : HonoursConflict noSchemas d info s R ↔ ModeHonoured info.table R
      (s.createTable noSchemas d.ingest RemoteSchema.bind info R) info.onConflict :=
    ⟨HonoursConflict.mode, fun h => ⟨h, hatomic⟩⟩
  rw [hmode]
  cases hconflict : info.onConflict with
  | errorOnConflict => exact errorOnConflict_iff hd (by rw [hconflict]; decide)
  | ignoreOnConflict => exact ignoreOnConflict_iff hd
  | replaceOnConflict =>
    refine iff_of_true ?_ trivial
    rcases createTable_cases noSchemas d.ingest RemoteSchema.bind info s R with
      ⟨-, e, he⟩ | ⟨hno, -⟩ | ⟨hno, -⟩ | ⟨hno, -⟩
    · exact ⟨e, by rw [he]⟩
    all_goals exact absurd hconflict hno
  | alterOnConflict => exact iff_of_true trivial trivial

/-- A driver whose calls all succeed, unless the table exists. -/
def creatingDriver : StatementDriver where
  statementNew := .ok ()
  setOption _ _ := .ok ()
  bindStream := .ok ()
  executeQuery R t := (R.create t).elim (.error "table already exists") .ok

theorem creatingDriver_createMode : creatingDriver.CreateMode := by
  intro R t R' h
  cases hcreate : R.create t with
  | none => simp [creatingDriver, hcreate] at h
  | some R'' =>
    obtain rfl : R'' = R' := by simpa [creatingDriver, hcreate] using h
    rfl

/-- A remote schema with one table, `a`, whose names are compared as they are. -/
def remoteA : RemoteSchema where
  caseSensitive := false
  tables := [⟨"a", [⟨"n", ⟨"INTEGER"⟩⟩]⟩]
  distinct := List.pairwise_singleton _ _

/-- `CREATE TABLE b`, and `CREATE TABLE IF NOT EXISTS b`, where there is no such table yet. -/
theorem new_table_honoured :
    HonoursConflict false creatingDriver ⟨"main", ⟨"b", []⟩, .errorOnConflict⟩ (.new "main")
        remoteA ∧
      HonoursConflict false creatingDriver ⟨"main", ⟨"b", []⟩, .ignoreOnConflict⟩ (.new "main")
        remoteA := by
  constructor
  · exact (createTable_honours_iff false creatingDriver_createMode _ _ _).mpr
      fun _ => ⟨by decide, _, rfl⟩
  · exact (createTable_honours_iff false creatingDriver_createMode _ _ _).mpr (by decide)

/-- `CREATE TABLE IF NOT EXISTS a`, where the table exists: the statement throws, whether or not `a`
is in the cache. -/
theorem existing_table_not_ignored :
    (Reflects remoteA ((AdbcSchemaEntry.new "main").lookupEntry remoteA.bind "a").2 ∧
      ¬ HonoursConflict false creatingDriver ⟨"main", ⟨"a", []⟩, .ignoreOnConflict⟩
        ((AdbcSchemaEntry.new "main").lookupEntry remoteA.bind "a").2 remoteA) ∧
    ¬ HonoursConflict false creatingDriver ⟨"main", ⟨"a", []⟩, .ignoreOnConflict⟩ (.new "main")
      remoteA := by
  refine ⟨⟨(reflects_new remoteA "main").internal "a", fun h => ?_⟩, fun h => ?_⟩
  · exact (h.mode (by decide)).1 ⟨.entryAlreadyExists .tableEntry "a", by decide⟩
  · exact (h.mode (by decide)).1 ⟨.io "table already exists", by decide⟩

end Honours

end AdbcSchemaEntry
end AdbcClient
