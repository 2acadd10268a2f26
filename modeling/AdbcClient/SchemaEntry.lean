import AdbcClient.MetadataFetch
import AdbcClient.RemoteSchema
import Mathlib.Data.List.AList

/-!
# The table cache of a schema

`AdbcSchemaEntry` keeps an entry for each table it has bound, in a map that
compares names without regard to case, and a flag `tables_loaded` that says a
table missing in the map does not exist (`adbc_schema_entry.cpp`).  `LookupEntry`
binds a missing table unless the flag is set, `Scan` binds every table the remote
lists and sets it, `CreateTable` creates a table and looks it up.

`Reflects R` is the invariant of the cache: each entry is filed under its own name
and has the columns of the table that the remote takes this name for.  It says
nothing about the flag, which is what the caches of `TableCache` and `CreateTableAs`
are about.
-/
namespace AdbcClient

/-- `AdbcTableEntry`. -/
structure AdbcTableEntry where
  name : String
  columns : List ColumnDefinition
  deriving DecidableEq, Repr

/-- `AdbcSchemaEntry`.  A key of the map is a name in lower case. -/
structure AdbcSchemaEntry where
  name : String
  ownedTables : AList (fun _ : List Char => AdbcTableEntry)
  tablesLoaded : Bool

/-- The kinds of entries a schema can be asked for. -/
inductive CatalogType where
  | tableEntry
  | viewEntry
  | indexEntry
  | sequenceEntry
  | typeEntry
  | functionEntry
  deriving DecidableEq, Repr

/-- What binding `SELECT * FROM` a table does: its columns, or an exception. -/
abbrev BindTable := String → Option (List ColumnDefinition)

/-- What a `CREATE TABLE` does if the table exists. -/
inductive OnCreateConflict where
  | errorOnConflict
  | ignoreOnConflict
  | replaceOnConflict
  | alterOnConflict
  deriving DecidableEq, Repr

/-- `BoundCreateTableInfo`. -/
structure CreateTableInfo where
  schema : String
  table : RemoteTable
  onConflict : OnCreateConflict
  deriving DecidableEq, Repr

/-- What `CreateTable` can throw: for a conflict mode that is not supported, for a table that
exists, or what the driver has said. -/
inductive CreateTableError where
  | notImplemented (message : String)
  | entryAlreadyExists (type : CatalogType) (name : String)
  | io (message : String)
  deriving DecidableEq, Repr

/-- An ingest in create mode, with its target schema and table. -/
abbrev Ingest := RemoteSchema → String → RemoteTable → Except String RemoteSchema

namespace AdbcSchemaEntry

/-- A new entry of a schema, whose cache of tables is empty and not loaded. -/
def new (name : String) : AdbcSchemaEntry := ⟨name, ∅, false⟩

/-- `LazyLoadNewTables`. -/
def lazyLoadNewTables (s : AdbcSchemaEntry) : AdbcSchemaEntry := { s with tablesLoaded := false }

/-- `GetOrCreateTableEntryInternal`. -/
def getOrCreateTableEntryInternal (bind : BindTable) (s : AdbcSchemaEntry) (tableName : String) :
    Option AdbcTableEntry × AdbcSchemaEntry :=
  match s.ownedTables.lookup (lower tableName) with
  | some entry => (some entry, s)
  | none =>
    if s.tablesLoaded then (none, s)
    else
      match bind tableName with
      | none => (none, s)
      | some columns =>
        let entry : AdbcTableEntry := ⟨tableName, columns⟩
        (some entry, { s with ownedTables := s.ownedTables.insert (lower tableName) entry })

/-- `LookupEntry`. -/
def lookupEntry (bind : BindTable) (s : AdbcSchemaEntry) (tableName : String) :
    Option AdbcTableEntry × AdbcSchemaEntry :=
  s.getOrCreateTableEntryInternal bind tableName

/-- The loop of `Scan` over the fetched names. -/
def loadTables (bind : BindTable) : AdbcSchemaEntry → List String → AdbcSchemaEntry
  | s, [] => s
  | s, tableName :: tableNames =>
    loadTables bind (s.getOrCreateTableEntryInternal bind tableName).2 tableNames

/-- The entries of tables that `Scan` calls back, in the order of the map. -/
def entries (s : AdbcSchemaEntry) : List AdbcTableEntry := s.ownedTables.entries.map Sigma.snd

/-- `Scan`: what it calls back, or what it throws. -/
def scan (noSchemas : Bool) (type : CatalogType)
    (fetchTableNames : String → Except MetadataError (List String)) (bind : BindTable)
    (s : AdbcSchemaEntry) : Except MetadataError (List AdbcTableEntry) × AdbcSchemaEntry :=
  if type ≠ .tableEntry then (.ok [], s)
  else if s.tablesLoaded then (.ok s.entries, s)
  else
    match fetchTableNames (getInternalSchemaName noSchemas s.name) with
    | .error e => (.error e, s)
    | .ok tableNames =>
      let s := { s.loadTables bind tableNames with tablesLoaded := true }
      (.ok s.entries, s)

/-- `CreateTable`, on a remote that `ingest` changes and `bind` reads. -/
def createTable (noSchemas : Bool) (ingest : Ingest) (bind : RemoteSchema → BindTable)
    (info : CreateTableInfo) (s : AdbcSchemaEntry) (remote : RemoteSchema) :
    Except CreateTableError (Option AdbcTableEntry) × AdbcSchemaEntry × RemoteSchema :=
  if info.onConflict = .replaceOnConflict then
    (.error (.notImplemented
      "CREATE OR REPLACE TABLE not yet supported with the ADBC extension"), s, remote)
  else if (s.ownedTables.lookup (lower info.table.name)).isSome then
    (.error (.entryAlreadyExists .tableEntry info.table.name), s, remote)
  else
    match ingest remote (getInternalSchemaName noSchemas info.schema) info.table with
    | .error message => (.error (.io message), s, remote)
    | .ok remote =>
      let s := { s with tablesLoaded := false }
      let (entry, s) := s.getOrCreateTableEntryInternal (bind remote) info.table.name
      (.ok entry, { s with tablesLoaded := true }, remote)

/-! ## What the operations do -/

variable {bind : BindTable} {s : AdbcSchemaEntry}

/-- **What a lookup can do**: answer from the map, or from the flag, or bind. -/
theorem internal_cases (bind : BindTable) (s : AdbcSchemaEntry) (n : String) :
    (∃ e, s.ownedTables.lookup (lower n) = some e ∧
      s.getOrCreateTableEntryInternal bind n = (some e, s)) ∨
    (lower n ∉ s.ownedTables ∧ (s.tablesLoaded = true ∨ bind n = none) ∧
      s.getOrCreateTableEntryInternal bind n = (none, s)) ∨
    (∃ columns, lower n ∉ s.ownedTables ∧ s.tablesLoaded = false ∧ bind n = some columns ∧
      s.getOrCreateTableEntryInternal bind n = (some ⟨n, columns⟩,
        { s with ownedTables := s.ownedTables.insert (lower n) ⟨n, columns⟩ })) := by
  rw [getOrCreateTableEntryInternal]
  cases hl : s.ownedTables.lookup (lower n) with
  | some e => exact .inl ⟨e, rfl, rfl⟩
  | none =>
    have hmem := AList.lookup_eq_none.mp hl
    cases hloaded : s.tablesLoaded with
    | true => exact .inr (.inl ⟨hmem, .inl rfl, rfl⟩)
    | false =>
      cases hbind : bind n with
      | none => exact .inr (.inl ⟨hmem, .inr rfl, rfl⟩)
      | some columns => exact .inr (.inr ⟨columns, hmem, rfl, rfl, rfl⟩)

/-- A new cache asks the remote for the table: there is nothing to find in the map. -/
theorem internal_new (bind : BindTable) (name n : String) :
    (new name).getOrCreateTableEntryInternal bind n =
      match bind n with
      | none => (none, new name)
      | some columns => (some ⟨n, columns⟩,
          { new name with ownedTables := AList.insert (lower n) ⟨n, columns⟩ ∅ }) := by
  have hempty : (new name).ownedTables.lookup (lower n) = none := AList.lookup_empty _
  rw [getOrCreateTableEntryInternal, hempty]
  rfl

@[simp] theorem internal_loaded (n : String) :
    (s.getOrCreateTableEntryInternal bind n).2.tablesLoaded = s.tablesLoaded := by
  rcases internal_cases bind s n with ⟨_, _, he⟩ | ⟨_, _, he⟩ | ⟨_, _, _, _, he⟩ <;> rw [he]

theorem mem_of_lookup {k : List Char} {e : AdbcTableEntry} (h : s.ownedTables.lookup k = some e) :
    k ∈ s.ownedTables := AList.lookup_isSome.mp (by rw [h]; rfl)

theorem exists_entry {k : List Char} (hk : k ∈ s.ownedTables) :
    ∃ e, s.ownedTables.lookup k = some e :=
  Option.isSome_iff_exists.mp (AList.lookup_isSome.mpr hk)

/-- The keys of the map after a lookup: those before it, and that of the table if it was found at
the remote. -/
theorem mem_internal {n : String} {k : List Char} :
    k ∈ (s.getOrCreateTableEntryInternal bind n).2.ownedTables ↔
      k ∈ s.ownedTables ∨ (k = lower n ∧ s.tablesLoaded = false ∧ (bind n).isSome) := by
  rcases internal_cases bind s n with ⟨e, hl, he⟩ | ⟨_, hcause, he⟩ | ⟨columns, _, hf, hb, he⟩
  · have hmem := mem_of_lookup hl
    rw [he]
    exact ⟨.inl, fun h => h.elim id (fun hk => hk.1 ▸ hmem)⟩
  · rw [he]
    refine ⟨.inl, fun h => h.elim id ?_⟩
    rintro ⟨_, hf, hb⟩
    rcases hcause with ht | hn
    · simp [ht] at hf
    · simp [hn] at hb
  · rw [he]
    simp [AList.mem_insert, hf, hb, or_comm]

/-- When `LookupEntry` finds something: the table is cached, or the flag is not set and the bind
succeeds. -/
theorem lookupEntry_isSome_iff {n : String} :
    (s.lookupEntry bind n).1.isSome ↔
      lower n ∈ s.ownedTables ∨ (s.tablesLoaded = false ∧ (bind n).isSome) := by
  rw [lookupEntry]
  rcases internal_cases bind s n with ⟨e, hl, he⟩ | ⟨hmem, hcause, he⟩ | ⟨columns, _, hf, hb, he⟩
  · have hmem := mem_of_lookup hl
    simp [he, hmem]
  · rw [he]
    rcases hcause with ht | hn
    · simp [hmem, ht]
    · simp [hmem, hn]
  · simp [he, hf, hb]

theorem lookupEntry_cached {n : String} {e : AdbcTableEntry}
    (h : s.ownedTables.lookup (lower n) = some e) : (s.lookupEntry bind n).1 = some e := by
  rw [lookupEntry, getOrCreateTableEntryInternal, h]

/-- What a lookup finds is in the map afterwards, under the requested name. -/
theorem lookup_of_lookupEntry {n : String} {e : AdbcTableEntry}
    (h : (s.lookupEntry bind n).1 = some e) :
    (s.lookupEntry bind n).2.ownedTables.lookup (lower n) = some e := by
  rw [lookupEntry] at h ⊢
  rcases internal_cases bind s n with ⟨e', hl, he⟩ | ⟨_, _, he⟩ | ⟨columns, _, _, _, he⟩
  · rw [he] at h ⊢
    rw [hl, ← h]
  · rw [he] at h
    cases h
  · rw [he] at h ⊢
    rw [AList.lookup_insert, ← h]

/-- What is cached stays in the map with the same entry, whatever is looked up after it. -/
theorem lookup_internal {k : List Char} {e : AdbcTableEntry}
    (h : s.ownedTables.lookup k = some e) (n : String) :
    (s.getOrCreateTableEntryInternal bind n).2.ownedTables.lookup k = some e := by
  rcases internal_cases bind s n with ⟨_, _, he⟩ | ⟨_, _, he⟩ | ⟨_, hmem, _, _, he⟩
  · rwa [he]
  · rwa [he]
  · have hne : k ≠ lower n := fun hk => hmem (hk ▸ mem_of_lookup h)
    rw [he]
    exact (AList.lookup_insert_ne hne).trans h

theorem lookup_loadTables {k : List Char} {e : AdbcTableEntry}
    (h : s.ownedTables.lookup k = some e) (ns : List String) :
    (s.loadTables bind ns).ownedTables.lookup k = some e := by
  induction ns generalizing s with
  | nil => exact h
  | cons n ns ih => exact ih (lookup_internal h n)

/-- **The keys after the loop of `Scan`.** -/
theorem mem_loadTables {ns : List String} {k : List Char} :
    k ∈ (s.loadTables bind ns).ownedTables ↔ k ∈ s.ownedTables ∨
      (s.tablesLoaded = false ∧ ∃ n ∈ ns, k = lower n ∧ (bind n).isSome) := by
  induction ns generalizing s with
  | nil => simp [loadTables]
  | cons n ns ih =>
    rw [loadTables, ih, mem_internal, internal_loaded]
    simp only [List.mem_cons, exists_eq_or_imp]
    tauto

/-- **What `Scan` can do** when asked for tables. -/
theorem scan_cases (noSchemas : Bool) (fetch : String → Except MetadataError (List String))
    (bind : BindTable) (s : AdbcSchemaEntry) :
    (s.tablesLoaded = true ∧ s.scan noSchemas .tableEntry fetch bind = (.ok s.entries, s)) ∨
    (s.tablesLoaded = false ∧ ∃ e, fetch (getInternalSchemaName noSchemas s.name) = .error e ∧
      s.scan noSchemas .tableEntry fetch bind = (.error e, s)) ∨
    (s.tablesLoaded = false ∧ ∃ ns, fetch (getInternalSchemaName noSchemas s.name) = .ok ns ∧
      s.scan noSchemas .tableEntry fetch bind =
        (.ok (s.loadTables bind ns).entries,
          { s.loadTables bind ns with tablesLoaded := true })) := by
  rw [scan, if_neg (by decide)]
  cases hloaded : s.tablesLoaded with
  | true => exact .inl ⟨rfl, rfl⟩
  | false =>
    cases hfetch : fetch (getInternalSchemaName noSchemas s.name) with
    | error e => exact .inr (.inl ⟨rfl, e, rfl, rfl⟩)
    | ok ns => exact .inr (.inr ⟨rfl, ns, rfl, rfl⟩)

/-- With a listing: the flag is set, or the listed tables are loaded. -/
theorem scan_listed_cases (noSchemas : Bool) (listing : List String) (bind : BindTable)
    (s : AdbcSchemaEntry) :
    (s.tablesLoaded = true ∧
      s.scan noSchemas .tableEntry (fun _ => .ok listing) bind = (.ok s.entries, s)) ∨
    (s.tablesLoaded = false ∧
      s.scan noSchemas .tableEntry (fun _ => .ok listing) bind =
        (.ok (s.loadTables bind listing).entries,
          { s.loadTables bind listing with tablesLoaded := true })) := by
  rcases scan_cases noSchemas (fun _ => .ok listing) bind s with
    hloaded | ⟨-, _, hfails, -⟩ | ⟨hunloaded, ns, hlisting, he⟩
  · exact .inl hloaded
  · cases hfails
  · obtain rfl := Except.ok.inj hlisting
    exact .inr ⟨hunloaded, he⟩

/-- The entries called back are those in the map. -/
theorem mem_entries {e : AdbcTableEntry} :
    e ∈ s.entries ↔ ∃ k, s.ownedTables.lookup k = some e := by
  simp only [entries, List.mem_map, Sigma.exists]
  constructor
  · rintro ⟨k, e', hmem, rfl⟩
    exact ⟨k, AList.mem_lookup_iff.mpr hmem⟩
  · rintro ⟨k, hk⟩
    exact ⟨k, e, AList.mem_lookup_iff.mp hk, rfl⟩

/-! ## Entries and remote tables -/

/-- **The cache's invariant**: an entry is filed under its own name, and has the
columns of the table the remote takes this name for. -/
def Reflects (R : RemoteSchema) (s : AdbcSchemaEntry) : Prop :=
  ∀ k e, s.ownedTables.lookup k = some e →
    k = lower e.name ∧ ∃ t, R.resolve e.name = some t ∧ t.columns = e.columns

variable {R : RemoteSchema}

theorem reflects_new (R : RemoteSchema) (name : String) : Reflects R (new name) := by
  intro k e h
  simp [new] at h

/-- A table may be filed under a name that the remote takes for it. -/
theorem Reflects.insert (h : Reflects R s) {n : String} {t : RemoteTable}
    (ht : R.resolve n = some t) (loaded : Bool) :
    Reflects R { s with
      ownedTables := s.ownedTables.insert (lower n) ⟨n, t.columns⟩, tablesLoaded := loaded } := by
  intro k e hk
  by_cases hkey : k = lower n
  · subst hkey
    obtain rfl := Option.some.inj (hk.symm.trans (AList.lookup_insert _))
    exact ⟨rfl, t, ht, rfl⟩
  · exact h k e ((AList.lookup_insert_ne hkey).symm.trans hk)

theorem Reflects.internal (h : Reflects R s) (n : String) :
    Reflects R (s.getOrCreateTableEntryInternal R.bind n).2 := by
  rcases internal_cases R.bind s n with ⟨_, _, he⟩ | ⟨_, _, he⟩ | ⟨columns, _, _, hb, he⟩
  · rwa [he]
  · rwa [he]
  · obtain ⟨t, ht, rfl⟩ := Option.map_eq_some_iff.mp hb
    rw [he]
    exact h.insert ht s.tablesLoaded

theorem Reflects.loadTables (h : Reflects R s) (ns : List String) :
    Reflects R (s.loadTables R.bind ns) := by
  induction ns generalizing s with
  | nil => exact h
  | cons n ns ih => exact ih (h.internal n)

/-- Setting the flag leaves the entries of the map as the remote's tables are. -/
theorem Reflects.setLoaded (h : Reflects R s) (loaded : Bool) :
    Reflects R { s with tablesLoaded := loaded } := h

/-- Nor do tables created at the remote. -/
theorem Reflects.create {R' : RemoteSchema} {t : RemoteTable} (h : Reflects R s)
    (ht : R.create t = some R') : Reflects R' s := by
  intro k e hk
  obtain ⟨hkey, u, hu, hc⟩ := h k e hk
  exact ⟨hkey, u, RemoteSchema.resolve_create ht hu, hc⟩

/-- An unambiguous name that is cached is that of a remote table. -/
theorem Reflects.resolve_isSome (h : Reflects R s) {n : String} (hn : R.Unambiguous n)
    (hk : lower n ∈ s.ownedTables) : (R.resolve n).isSome := by
  obtain ⟨e, he⟩ := exists_entry hk
  obtain ⟨hkey, t, ht, -⟩ := h _ e he
  rw [RemoteSchema.resolve_eq_of_lower hn ht hkey.symm]
  rfl

/-- An entry found for an unambiguous name reads the table of that name. -/
theorem Reflects.resolve_eq (h : Reflects R s) {n : String} {e : AdbcTableEntry}
    (he : s.ownedTables.lookup (lower n) = some e) (hn : R.Unambiguous n) :
    R.resolve e.name = R.resolve n := by
  obtain ⟨hkey, t, ht, -⟩ := h _ e he
  rw [ht, RemoteSchema.resolve_eq_of_lower hn ht hkey.symm]

end AdbcSchemaEntry

end AdbcClient
