import AdbcClient.SchemaLookup

/-!
# Clearing the cache

`adbc_clear_cache` is for a remote that has changed since `ATTACH`.  `ClearCache` drops
the entries and the names of the schemas (`adbc_catalog.cpp`), but two more things come
from the remote and are fetched by the constructor only (`adbc_catalog.hpp`): the name of
the connection's catalog, and `no_schemas`, which says that the remote has a single schema
without a name.

`Alike` relates two catalogs that answer every operation alike, `alike_step` is the
simulation between them, and `clearCache_equivalent` says when a cleared catalog is one
attached anew.
-/
namespace AdbcClient
open Runs

/-- A state of the remote: what its driver answers to metadata requests, the catalog a new
connection is in, and the columns a query is bound to. -/
structure Remote where
  getObjects : GetObjects
  currentCatalog : String
  bindQuery : String → Option (List ColumnDefinition)

/-- An operation on the catalog, or on one of its entries. -/
inductive CatalogOp where
  | lookupSchema (schemaName : String) (ifNotFound : OnEntryNotFound)
  | scanSchemas
  | lookupEntry (schemaName tableName : String)
  | scan (schemaName : String) (type : CatalogType)
  | createTable (schemaName : String) (ingest : Ingest) (bind : RemoteSchema → BindTable)
      (info : CreateTableInfo) (remote : RemoteSchema)
  | lazyLoadNewTables (schemaName : String)
  | clearCache

/-- What an operation answers.  A schema is answered by its name. -/
inductive CatalogAnswer where
  | schema (result : Except LookupError (Option String))
  | schemas (result : Except MetadataError (List String))
  | table (result : Option AdbcTableEntry)
  | tables (result : Except MetadataError (List AdbcTableEntry))
  | created (result : Except CreateTableError (Option AdbcTableEntry))
  | noEntry
  | done

namespace AdbcCatalog

/-- `ATTACH`. -/
def attachTo (remote : Remote) : Except MetadataError AdbcCatalog :=
  attach remote.getObjects remote.currentCatalog

/-- Call a method of the entry of a schema. -/
def onEntry (c : AdbcCatalog) (schemaName : String)
    (method : AdbcSchemaEntry → CatalogAnswer × AdbcSchemaEntry) : CatalogAnswer × AdbcCatalog :=
  match c.getCatalogEntry schemaName with
  | none => (.noEntry, c)
  | some entry =>
    let key := lower (getInternalSchemaName c.noSchemas schemaName)
    ((method entry).1, { c with ownedSchemas := c.ownedSchemas.insert key (method entry).2 })

/-- How `GetOrCreateTableEntryInternal` binds a table of a schema. -/
def bindTable (d : Delimiter) (remote : Remote) (noSchemas : Bool) (schemaName : String) :
    BindTable := fun tableName =>
  remote.bindQuery (AdbcArrowStreamFactory.ofTable
    (getDelimitedInternalName d noSchemas schemaName tableName) d).queryText

/-- One operation on a catalog, against the remote as it is then: what it answers, and the catalog
after it. -/
def step (d : Delimiter) (remote : Remote) (c : AdbcCatalog) :
    CatalogOp → CatalogAnswer × AdbcCatalog
  | .lookupSchema schemaName ifNotFound =>
    let (result, c) := c.lookupSchema remote.getObjects schemaName ifNotFound
    (.schema (result.map (Option.map AdbcSchemaEntry.name)), c)
  | .scanSchemas =>
    let (result, c) := c.scanSchemas remote.getObjects
    (.schemas (result.map (List.map AdbcSchemaEntry.name)), c)
  | .lookupEntry schemaName tableName =>
    c.onEntry schemaName fun entry =>
      let (result, entry) :=
        entry.lookupEntry (bindTable d remote c.noSchemas entry.name) tableName
      (.table result, entry)
  | .scan schemaName type =>
    c.onEntry schemaName fun entry =>
      let (result, entry) := entry.scan c.noSchemas type
        (fetchTableNames remote.getObjects c.catalogName c.noSchemas)
        (bindTable d remote c.noSchemas entry.name)
      (.tables result, entry)
  | .createTable schemaName ingest bind info schema =>
    c.onEntry schemaName fun entry =>
      let (result, entry, _) := entry.createTable c.noSchemas ingest bind info schema
      (.created result, entry)
  | .lazyLoadNewTables schemaName =>
    c.onEntry schemaName fun entry => (.done, entry.lazyLoadNewTables)
  | .clearCache => (.done, c.clearCache)

/-- **A catalog is like another one**: every sequence of operations answers the same, and
the names of tables in queries are the same. -/
structure Equivalent (d : Delimiter) (remote : Remote) (c c' : AdbcCatalog) : Prop where
  answers : ∀ ops, outputs (step d remote) c ops = outputs (step d remote) c' ops
  text : ∀ schema table, getDelimitedInternalName d c.noSchemas schema table =
    getDelimitedInternalName d c'.noSchemas schema table

/-! ## Catalogs that answer alike -/

/-- The driver's answers to requests with either catalog name have the same names in them. -/
def SameObjects (remote : Remote) (catalogName catalogName' : String) : Prop :=
  ∀ depth schema, namesInAnswer (remote.getObjects ⟨depth, catalogArgument catalogName, schema⟩) =
    namesInAnswer (remote.getObjects ⟨depth, catalogArgument catalogName', schema⟩)

/-- **The simulation relation**: two catalogs with the same entries and flag, whose names of schemas
are the same once they are loaded. -/
structure Alike (remote : Remote) (c c' : AdbcCatalog) : Prop where
  noSchemas : c.noSchemas = c'.noSchemas
  ownedSchemas : c.ownedSchemas = c'.ownedSchemas
  names : (c.getCachedSchemaNames remote.getObjects).1 =
    (c'.getCachedSchemaNames remote.getObjects).1
  objects : SameObjects remote c.catalogName c'.catalogName

namespace Alike
variable {remote : Remote} {c c' : AdbcCatalog}

theorem fetchTableNames_eq (h : Alike remote c c') :
    fetchTableNames remote.getObjects c.catalogName c.noSchemas =
      fetchTableNames remote.getObjects c'.catalogName c'.noSchemas := by
  funext schemaName
  rw [AdbcClient.fetchTableNames_eq, AdbcClient.fetchTableNames_eq, ← h.noSchemas]
  exact h.objects .tables (some (getInternalSchemaName c.noSchemas schemaName))

theorem withOwned (h : Alike remote c c')
    {entries entries' : AList (fun _ : List Char => AdbcSchemaEntry)} (he : entries = entries') :
    Alike remote { c with ownedSchemas := entries } { c' with ownedSchemas := entries' } where
  noSchemas := h.noSchemas
  ownedSchemas := he
  names := (getCachedSchemaNames_owned _ c entries).trans
    (h.names.trans (getCachedSchemaNames_owned _ c' entries').symm)
  objects := h.objects

theorem withEntry (h : Alike remote c c') (internalName : String) :
    Alike remote (c.withEntry internalName) (c'.withEntry internalName) :=
  h.withOwned (by rw [h.noSchemas, h.ownedSchemas])

theorem withNames (h : Alike remote c c') (names : List String) :
    Alike remote (c.withNames names) (c'.withNames names) where
  noSchemas := h.noSchemas
  ownedSchemas := h.ownedSchemas
  names := rfl
  objects := h.objects

/-- The names are loaded in both or in neither. -/
theorem getCachedSchemaNames (h : Alike remote c c') :
    (∃ e, c.getCachedSchemaNames remote.getObjects = (.error e, c) ∧
      c'.getCachedSchemaNames remote.getObjects = (.error e, c')) ∨
    (∃ names, c.getCachedSchemaNames remote.getObjects = (.ok names, c.withNames names) ∧
      c'.getCachedSchemaNames remote.getObjects = (.ok names, c'.withNames names)) := by
  have hnames := h.names
  rcases c.getCachedSchemaNames_cases remote.getObjects with ⟨e, he⟩ | ⟨names, he⟩
  · rcases c'.getCachedSchemaNames_cases remote.getObjects with ⟨e', he'⟩ | ⟨names', he'⟩
    · rw [he, he'] at hnames
      cases hnames
      exact .inl ⟨e, he, he'⟩
    · rw [he, he'] at hnames
      cases hnames
  · rcases c'.getCachedSchemaNames_cases remote.getObjects with ⟨e', he'⟩ | ⟨names', he'⟩
    · rw [he, he'] at hnames
      cases hnames
    · rw [he, he'] at hnames
      cases hnames
      exact .inr ⟨names, he, he'⟩

theorem createCatalogEntry (h : Alike remote c c') (n : String) :
    (c.createCatalogEntry (getInternalSchemaName c.noSchemas n)).1 =
      (c'.createCatalogEntry (getInternalSchemaName c'.noSchemas n)).1 ∧
    Alike remote (c.createCatalogEntry (getInternalSchemaName c.noSchemas n)).2
      (c'.createCatalogEntry (getInternalSchemaName c'.noSchemas n)).2 := by
  have hlookup : c'.ownedSchemas.lookup (lower (getInternalSchemaName c'.noSchemas n)) =
      c.ownedSchemas.lookup (lower (getInternalSchemaName c.noSchemas n)) := by
    rw [h.noSchemas, h.ownedSchemas]
  rcases createCatalogEntry_cases (getInternalSchemaName_idem c.noSchemas n) with
    ⟨e, hl, he⟩ | ⟨hl, he⟩
  · rcases createCatalogEntry_cases (getInternalSchemaName_idem c'.noSchemas n) with
      ⟨e', hl', he'⟩ | ⟨hl', -⟩
    · rw [hlookup, hl] at hl'
      cases hl'
      rw [he, he']
      exact ⟨rfl, h⟩
    · cases hl'.symm.trans (hlookup.trans hl)
  · rcases createCatalogEntry_cases (getInternalSchemaName_idem c'.noSchemas n) with
      ⟨e', hl', -⟩ | ⟨_, he'⟩
    · cases hl'.symm.trans (hlookup.trans hl)
    · rw [he, he', ← h.noSchemas]
      exact ⟨rfl, h.withEntry _⟩

theorem scanNames (h : Alike remote c c') (names : List String) :
    (c.scanNames names).1 = (c'.scanNames names).1 ∧
      Alike remote (c.scanNames names).2 (c'.scanNames names).2 := by
  induction names generalizing c c' with
  | nil => exact ⟨rfl, h⟩
  | cons n names ih =>
    obtain ⟨hentry, hnext⟩ := h.createCatalogEntry n
    obtain ⟨hentries, hlast⟩ := ih hnext
    rw [scanNames_cons, scanNames_cons]
    exact ⟨congrArg₂ List.cons hentry hentries, hlast⟩

theorem scanSchemas (h : Alike remote c c') :
    (c.scanSchemas remote.getObjects).1 = (c'.scanSchemas remote.getObjects).1 ∧
      Alike remote (c.scanSchemas remote.getObjects).2 (c'.scanSchemas remote.getObjects).2 := by
  unfold AdbcCatalog.scanSchemas
  rcases h.getCachedSchemaNames with ⟨e, he, he'⟩ | ⟨names, he, he'⟩
  · rw [he, he']
    exact ⟨rfl, h⟩
  · rw [he, he']
    obtain ⟨hentries, hnext⟩ := (h.withNames names).scanNames names
    exact ⟨congrArg Except.ok hentries, hnext⟩

theorem lookupSchema (h : Alike remote c c') (n : String) (ifNotFound : OnEntryNotFound) :
    (c.lookupSchema remote.getObjects n ifNotFound).1 =
      (c'.lookupSchema remote.getObjects n ifNotFound).1 ∧
    Alike remote (c.lookupSchema remote.getObjects n ifNotFound).2
      (c'.lookupSchema remote.getObjects n ifNotFound).2 := by
  have hget : c'.getCatalogEntry (getInternalSchemaName c'.noSchemas n) =
      c.getCatalogEntry (getInternalSchemaName c.noSchemas n) := by
    rw [getCatalogEntry_internal, getCatalogEntry_internal, h.noSchemas, h.ownedSchemas]
  simp only [AdbcCatalog.lookupSchema, hget]
  cases c.getCatalogEntry (getInternalSchemaName c.noSchemas n) with
  | some entry => exact ⟨rfl, h⟩
  | none =>
    rcases h.getCachedSchemaNames with ⟨e, he, he'⟩ | ⟨names, he, he'⟩
    · simp only [he, he']
      exact ⟨trivial, h⟩
    · obtain ⟨hentry, hnext⟩ := (h.withNames names).createCatalogEntry n
      by_cases hfound : getInternalSchemaName c.noSchemas n ∈ names
      · have hfound' : getInternalSchemaName c'.noSchemas n ∈ names := h.noSchemas ▸ hfound
        simp only [he, he', if_pos hfound, if_pos hfound']
        exact ⟨congrArg (fun entry => Except.ok (some entry)) hentry, hnext⟩
      · have hfound' : getInternalSchemaName c'.noSchemas n ∉ names := h.noSchemas ▸ hfound
        simp only [he, he', if_neg hfound, if_neg hfound']
        exact ⟨trivial, h.withNames names⟩

theorem onEntry (h : Alike remote c c') (schemaName : String)
    {method method' : AdbcSchemaEntry → CatalogAnswer × AdbcSchemaEntry}
    (hmethod : method = method') :
    (c.onEntry schemaName method).1 = (c'.onEntry schemaName method').1 ∧
      Alike remote (c.onEntry schemaName method).2 (c'.onEntry schemaName method').2 := by
  obtain rfl := hmethod
  have hget : c'.getCatalogEntry schemaName = c.getCatalogEntry schemaName := by
    rw [getCatalogEntry, getCatalogEntry, h.noSchemas, h.ownedSchemas]
  unfold AdbcCatalog.onEntry
  rw [hget]
  cases c.getCatalogEntry schemaName with
  | none => exact ⟨rfl, h⟩
  | some entry =>
    exact ⟨rfl, h.withOwned (by rw [h.noSchemas, h.ownedSchemas])⟩

/-- Clearing the caches of two catalogs that answer alike leaves them answering alike. -/
theorem clearCache (h : Alike remote c c') : Alike remote c.clearCache c'.clearCache where
  noSchemas := h.noSchemas
  ownedSchemas := rfl
  names := by
    have hfetch : fetchSchemaNames remote.getObjects c.catalogName =
        fetchSchemaNames remote.getObjects c'.catalogName := by
      rw [fetchSchemaNames_eq, fetchSchemaNames_eq]
      exact h.objects .dbSchemas none
    simp only [AdbcCatalog.getCachedSchemaNames, AdbcCatalog.clearCache, Bool.false_eq_true,
      if_false, hfetch]
    cases fetchSchemaNames remote.getObjects c'.catalogName <;> rfl
  objects := h.objects

end Alike

/-- **Every operation answers alike, and leaves the catalogs so.** -/
theorem alike_step (d : Delimiter) {remote : Remote} (c c' : AdbcCatalog) (op : CatalogOp)
    (h : Alike remote c c') : (c.step d remote op).1 = (c'.step d remote op).1 ∧
      Alike remote (c.step d remote op).2 (c'.step d remote op).2 := by
  cases op with
  | lookupSchema n ifNotFound =>
    obtain ⟨hanswer, hnext⟩ := h.lookupSchema n ifNotFound
    refine ⟨?_, hnext⟩
    show CatalogAnswer.schema ((c.lookupSchema remote.getObjects n ifNotFound).1.map _) =
      .schema ((c'.lookupSchema remote.getObjects n ifNotFound).1.map _)
    rw [hanswer]
  | scanSchemas =>
    obtain ⟨hanswer, hnext⟩ := h.scanSchemas
    refine ⟨?_, hnext⟩
    show CatalogAnswer.schemas ((c.scanSchemas remote.getObjects).1.map _) =
      .schemas ((c'.scanSchemas remote.getObjects).1.map _)
    rw [hanswer]
  | lookupEntry n tableName => exact h.onEntry n (by rw [h.noSchemas])
  | scan n type => exact h.onEntry n (by rw [h.fetchTableNames_eq, h.noSchemas])
  | createTable n ingest bind info schema => exact h.onEntry n (by rw [h.noSchemas])
  | lazyLoadNewTables n => exact h.onEntry n rfl
  | clearCache => exact ⟨rfl, h.clearCache⟩

/-! ## What only `ATTACH` fetches -/

/-- What the constructor has fixed stays as it is. -/
def Keeps (c c' : AdbcCatalog) : Prop :=
  c'.noSchemas = c.noSchemas ∧ c'.catalogName = c.catalogName

theorem keeps_refl (c : AdbcCatalog) : c.Keeps c := ⟨rfl, rfl⟩

theorem Keeps.trans {c c' c'' : AdbcCatalog} (h : c.Keeps c') (h' : c'.Keeps c'') : c.Keeps c'' :=
  ⟨h'.1.trans h.1, h'.2.trans h.2⟩

theorem keeps_scanNames (c : AdbcCatalog) (names : List String) :
    c.Keeps (c.scanNames names).2 := by
  induction names generalizing c with
  | nil => exact c.keeps_refl
  | cons n names ih =>
    rw [scanNames_cons]
    rcases createCatalogEntry_cases (getInternalSchemaName_idem c.noSchemas n) with
      ⟨e, _, he⟩ | ⟨_, he⟩
    · rw [he]
      exact ih c
    · rw [he]
      exact ih (c.withEntry _)

theorem keeps_lookupSchema (getObjects : GetObjects) (c : AdbcCatalog) (n : String)
    (ifNotFound : OnEntryNotFound) : c.Keeps (c.lookupSchema getObjects n ifNotFound).2 := by
  rcases c.lookupSchema_cases getObjects n ifNotFound rfl with
    ⟨_, _, he⟩ | ⟨_, _, _, he⟩ | ⟨_, _, _, _, he⟩ | ⟨_, _, _, _, he⟩ <;>
  rw [he] <;> exact ⟨rfl, rfl⟩

theorem keeps_scanSchemas (getObjects : GetObjects) (c : AdbcCatalog) :
    c.Keeps (c.scanSchemas getObjects).2 := by
  rcases c.getCachedSchemaNames_cases getObjects with ⟨e, he⟩ | ⟨names, he⟩
  · simp only [scanSchemas, he]
    exact c.keeps_refl
  · simp only [scanSchemas, he]
    exact (c.withNames names).keeps_scanNames names

theorem keeps_onEntry (c : AdbcCatalog) (n : String)
    (method : AdbcSchemaEntry → CatalogAnswer × AdbcSchemaEntry) :
    c.Keeps (c.onEntry n method).2 := by
  unfold onEntry
  split
  · exact c.keeps_refl
  · exact ⟨rfl, rfl⟩

/-- **No operation fetches them again**: what the constructor has fetched of the remote stays as it
is for the life of the catalog. -/
theorem keeps_step (d : Delimiter) (remote : Remote) (c : AdbcCatalog) (op : CatalogOp) :
    c.Keeps (c.step d remote op).2 := by
  cases op with
  | lookupSchema n ifNotFound => exact c.keeps_lookupSchema _ n ifNotFound
  | scanSchemas => exact c.keeps_scanSchemas _
  | lookupEntry n tableName => exact c.keeps_onEntry n _
  | scan n type => exact c.keeps_onEntry n _
  | createTable n ingest bind info schema => exact c.keeps_onEntry n _
  | lazyLoadNewTables n => exact c.keeps_onEntry n _
  | clearCache => exact ⟨rfl, rfl⟩

/-- The catalog after operations, each on the remote as it is then. -/
def after (d : Delimiter) (c : AdbcCatalog) (earlier : List (Remote × CatalogOp)) : AdbcCatalog :=
  run (fun c a => (c.step d a.1 a.2).2) c earlier

theorem keeps_after (d : Delimiter) (c : AdbcCatalog) (earlier : List (Remote × CatalogOp)) :
    c.Keeps (c.after d earlier) :=
  run_invariant _ (fun c' a _ h => h.trans (keeps_step d a.1 c' a.2)) c.keeps_refl

/-- What `ATTACH` makes of the names it fetches. -/
theorem attachTo_cases {remote : Remote} {c : AdbcCatalog} (h : attachTo remote = .ok c) :
    ∃ names, fetchSchemaNames remote.getObjects remote.currentCatalog = .ok names ∧
      c = ⟨remote.currentCatalog, names == [""], ∅, names, true⟩ := by
  unfold attachTo attach at h
  cases hfetch : fetchSchemaNames remote.getObjects remote.currentCatalog with
  | error e =>
    rw [hfetch] at h
    cases h
  | ok names =>
    rw [hfetch] at h
    exact ⟨names, rfl, (Except.ok.inj h).symm⟩

theorem noSchemas_attachTo {remote : Remote} {c : AdbcCatalog} (h : attachTo remote = .ok c) :
    c.noSchemas = true ↔ c.cachedSchemaNames = [""] := by
  obtain ⟨names, _, rfl⟩ := attachTo_cases h
  exact beq_iff_eq

/-- The flag shows in the text of every table name. -/
theorem noSchemas_of_text {d : Delimiter} {noSchemas noSchemas' : Bool} {schema table : String}
    (h : getDelimitedInternalName d noSchemas schema table =
      getDelimitedInternalName d noSchemas' schema table) : noSchemas = noSchemas' := by
  have hlength := congrArg String.length h
  cases noSchemas with
  | true =>
    cases noSchemas' with
    | true => rfl
    | false => simp [getDelimitedInternalName, quoted, getInternalSchemaName] at hlength
  | false =>
    cases noSchemas' with
    | true => simp [getDelimitedInternalName, quoted, getInternalSchemaName] at hlength
    | false => rfl

/-- A cleared catalog has to ask for everything but the flag and the catalog's name. -/
theorem alike_clearCache {remote : Remote} {c fresh : AdbcCatalog}
    (hfresh : attachTo remote = .ok fresh) (hflag : c.noSchemas = fresh.noSchemas)
    (hobjects : SameObjects remote c.catalogName remote.currentCatalog) :
    Alike remote c.clearCache fresh := by
  obtain ⟨names, hfetch, rfl⟩ := attachTo_cases hfresh
  refine ⟨hflag, rfl, ?_, hobjects⟩
  have hcleared : fetchSchemaNames remote.getObjects c.catalogName = .ok names := by
    rw [← hfetch, fetchSchemaNames_eq, fetchSchemaNames_eq]
    exact hobjects .dbSchemas none
  simp [getCachedSchemaNames, clearCache, hcleared]

/-- **When clearing the cache is like attaching again.**  A catalog that has been cleared answers
like a newly attached one, after any earlier operations, only if the remote lists a single schema
without a name at both times or at neither.  If it does so, and the driver lists the same names for
the catalog of `ATTACH` as for the current one, then the two are equivalent. -/
theorem clearCache_equivalent (d : Delimiter) {remote remote' : Remote} {c fresh : AdbcCatalog}
    (hattached : attachTo remote = .ok c) (hfresh : attachTo remote' = .ok fresh)
    (earlier : List (Remote × CatalogOp)) :
    (Equivalent d remote' (c.after d earlier).clearCache fresh →
      (c.cachedSchemaNames = [""] ↔ fresh.cachedSchemaNames = [""])) ∧
    ((c.cachedSchemaNames = [""] ↔ fresh.cachedSchemaNames = [""]) →
      SameObjects remote' remote.currentCatalog remote'.currentCatalog →
        Equivalent d remote' (c.after d earlier).clearCache fresh) := by
  obtain ⟨hflag, hname⟩ := keeps_after d c earlier
  rw [← noSchemas_attachTo hattached, ← noSchemas_attachTo hfresh, ← Bool.eq_iff_iff]
  constructor
  · intro h
    have hsame : (c.after d earlier).noSchemas = fresh.noSchemas := noSchemas_of_text (h.text "" "")
    exact hflag.symm.trans hsame
  · intro hsame hobjects
    have hcatalog : c.catalogName = remote.currentCatalog := by
      obtain ⟨_, _, rfl⟩ := attachTo_cases hattached
      rfl
    have halike : Alike remote' (c.after d earlier).clearCache fresh := by
      refine alike_clearCache hfresh (hflag.trans hsame) ?_
      rw [hname, hcatalog]
      exact hobjects
    refine ⟨fun ops => outputs_eq (alike_step d) halike ops, fun schema table => ?_⟩
    rw [halike.noSchemas]

/-- A listing of one catalog with one schema. -/
def oneSchema (name : List Char) : ArrowArray :=
  ⟨1, 0, none, [], [],
    [⟨1, 0, none, [0, 1], [], []⟩,
      ⟨1, 0, none, [0, 1], [],
        [⟨1, 0, none, [], [], [⟨1, 0, none, [0, name.length], name, []⟩]⟩]⟩]⟩

/-- A driver that lists a schema without a name, as drivers without schemas do. -/
def unnamedSchema : Remote :=
  ⟨answering ⟨[oneSchema []], .endOfStream, by decide⟩ ⟨[], .endOfStream, by decide⟩, "",
    fun _ => none⟩

/-- A driver that lists one schema with a name, `s`. -/
def namedSchema : Remote :=
  ⟨answering ⟨[oneSchema ['s']], .endOfStream, by decide⟩ ⟨[], .endOfStream, by decide⟩, "",
    fun _ => none⟩

/-- One that lists a schema `t` instead. -/
def renamedSchema : Remote :=
  ⟨answering ⟨[oneSchema ['t']], .endOfStream, by decide⟩ ⟨[], .endOfStream, by decide⟩, "",
    fun _ => none⟩

theorem attachTo_unnamedSchema : attachTo unnamedSchema = .ok ⟨"", true, ∅, [""], true⟩ := by
  rw [attachTo, attach, unnamedSchema, fetchSchemaNames_answering]
  rfl

theorem attachTo_namedSchema : attachTo namedSchema = .ok ⟨"", false, ∅, ["s"], true⟩ := by
  rw [attachTo, attach, namedSchema, fetchSchemaNames_answering]
  rfl

theorem attachTo_renamedSchema : attachTo renamedSchema = .ok ⟨"", false, ∅, ["t"], true⟩ := by
  rw [attachTo, attach, renamedSchema, fetchSchemaNames_answering]
  rfl

/-- Clearing the cache of a catalog after lookups, where the remote has got another schema in
between: the old schema is still in the map, and the answers are those of a new catalog. -/
theorem renamed_schema_equivalent :
    let earlier : List (Remote × CatalogOp) :=
      [(namedSchema, .lookupSchema "s" .returnNull), (renamedSchema, .lookupSchema "t" .returnNull)]
    let stale := after ⟨'"', '"'⟩ ⟨"", false, ∅, ["s"], true⟩ earlier
    stale.ownedSchemas.keys = [['s']] ∧ stale.cachedSchemaNames = ["s"] ∧
      Equivalent ⟨'"', '"'⟩ renamedSchema stale.clearCache ⟨"", false, ∅, ["t"], true⟩ := by
  intro earlier stale
  refine ⟨rfl, rfl, ?_⟩
  exact (clearCache_equivalent ⟨'"', '"'⟩ attachTo_namedSchema attachTo_renamedSchema earlier).2
    (by decide) (fun _ _ => rfl)

/-- The remote had no named schema at `ATTACH` and has one when the cache is cleared: the
tables of `s` are still asked for without their schema. -/
theorem named_schema_not_equivalent :
    attachTo unnamedSchema = .ok ⟨"", true, ∅, [""], true⟩ ∧
    attachTo namedSchema = .ok ⟨"", false, ∅, ["s"], true⟩ ∧
    ¬ Equivalent ⟨'"', '"'⟩ namedSchema (clearCache ⟨"", true, ∅, [""], true⟩)
      ⟨"", false, ∅, ["s"], true⟩ := by
  refine ⟨attachTo_unnamedSchema, attachTo_namedSchema, fun h => ?_⟩
  have htext := h.text "s" "t"
  revert htext
  decide

end AdbcCatalog

end AdbcClient
