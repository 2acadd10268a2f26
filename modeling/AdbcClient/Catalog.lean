import AdbcClient.SchemaEntry

/-!
# The catalog

`AdbcCatalog` caches the schema names of an attached database and an entry for
each schema it has been asked for (`adbc_catalog.cpp`).  The names are fetched when
the database is attached, and again after `ClearCache`; the entries keep the tables
(`AdbcSchemaEntry`).

Both caches are filled from metadata streams, and `ForEachCatalog` leaves its loop
alike at the end of a stream and at an error.  `raisesFailure_iff` is what comes of
it: a listing that broke off is taken for a complete one.
-/
namespace AdbcClient

/-- `AdbcCatalog`, with the name of the remote catalog that a connection is in. -/
structure AdbcCatalog where
  catalogName : String
  noSchemas : Bool
  ownedSchemas : AList (fun _ : List Char => AdbcSchemaEntry)
  cachedSchemaNames : List String
  schemaNamesLoaded : Bool

namespace AdbcCatalog

/-- The constructor of the catalog, after `FetchCatalogName`: it fetches the names of the
schemas. -/
def attach (getObjects : GetObjects) (catalogName : String) : Except MetadataError AdbcCatalog :=
  (fetchSchemaNames getObjects catalogName).map fun names =>
    { catalogName := catalogName
      noSchemas := names == [""]
      ownedSchemas := ∅
      cachedSchemaNames := names
      schemaNamesLoaded := true }

/-- `ClearCache`. -/
def clearCache (c : AdbcCatalog) : AdbcCatalog :=
  { c with ownedSchemas := ∅, cachedSchemaNames := [], schemaNamesLoaded := false }

/-- `GetCachedSchemaNames`. -/
def getCachedSchemaNames (getObjects : GetObjects) (c : AdbcCatalog) :
    Except MetadataError (List String) × AdbcCatalog :=
  if c.schemaNamesLoaded then (.ok c.cachedSchemaNames, c)
  else
    match fetchSchemaNames getObjects c.catalogName with
    | .error e => (.error e, c)
    | .ok names =>
      (.ok names, { c with cachedSchemaNames := names, schemaNamesLoaded := true })

/-- `GetCatalogEntry`. -/
def getCatalogEntry (c : AdbcCatalog) (schemaName : String) : Option AdbcSchemaEntry :=
  c.ownedSchemas.lookup (lower (getInternalSchemaName c.noSchemas schemaName))

/-- `CreateCatalogEntry`. -/
def createCatalogEntry (c : AdbcCatalog) (schemaName : String) : AdbcSchemaEntry × AdbcCatalog :=
  let internalSchema := getInternalSchemaName c.noSchemas schemaName
  match c.ownedSchemas.lookup (lower internalSchema) with
  | some entry => (entry, c)
  | none =>
    let entry := AdbcSchemaEntry.new (getExternalSchemaName c.noSchemas schemaName)
    (entry, { c with ownedSchemas := c.ownedSchemas.insert (lower internalSchema) entry })

/-- **After `ClearCache` a schema starts with an empty cache.** -/
theorem createCatalogEntry_clearCache (c : AdbcCatalog) (schemaName : String) :
    (c.clearCache.createCatalogEntry schemaName).1 =
      .new (getExternalSchemaName c.noSchemas schemaName) := by
  simp [createCatalogEntry, clearCache]

/-! ## Failed fetches -/

/-- A driver that answers the two kinds of requests with these streams. -/
def answering (schemas : ObjectsStream .dbSchemas) (tables : ObjectsStream .tables) : GetObjects
  | ⟨.dbSchemas, _, _⟩ => .ok schemas
  | ⟨.tables, _, _⟩ => .ok tables

/-- **A failed fetch is not taken for a complete one**: an error at the end of a
stream is raised, and the cache it would have filled stays as it is. -/
structure RaisesFailure (c : AdbcCatalog) (s : AdbcSchemaEntry) (bind : BindTable)
    (schemas : ObjectsStream .dbSchemas) (tables : ObjectsStream .tables) : Prop where
  fetchSchemaNames : schemas.ending ≠ .endOfStream →
    ∃ e, fetchSchemaNames (answering schemas tables) c.catalogName = .error e
  getCachedSchemaNames : schemas.ending ≠ .endOfStream →
    (c.getCachedSchemaNames (answering schemas tables)).2 = c
  fetchTableNames : tables.ending ≠ .endOfStream → ∀ schemaName,
    ∃ e, fetchTableNames (answering schemas tables) c.catalogName c.noSchemas schemaName = .error e
  scan : tables.ending ≠ .endOfStream →
    (s.scan c.noSchemas .tableEntry
      (AdbcClient.fetchTableNames (answering schemas tables) c.catalogName c.noSchemas) bind).2 = s

variable (schemas : ObjectsStream .dbSchemas) (tables : ObjectsStream .tables)

/-- The fetched names are those in the batches, however the stream ends. -/
theorem fetchSchemaNames_answering (catalogName : String) :
    fetchSchemaNames (answering schemas tables) catalogName = .ok schemas.names := by
  rw [fetchSchemaNames_eq]
  rfl

theorem fetchTableNames_answering (catalogName : String) (noSchemas : Bool) (schemaName : String) :
    fetchTableNames (answering schemas tables) catalogName noSchemas schemaName =
      .ok tables.names := by
  rw [fetchTableNames_eq]
  rfl

/-- After a listing a cache counts as complete, however the stream has ended. -/
theorem getCachedSchemaNames_loaded (c : AdbcCatalog) :
    (c.getCachedSchemaNames (answering schemas tables)).2.schemaNamesLoaded = true := by
  rw [getCachedSchemaNames]
  cases hloaded : c.schemaNamesLoaded with
  | true => exact hloaded
  | false => rw [fetchSchemaNames_answering, if_neg Bool.false_ne_true]

theorem scan_loaded (c : AdbcCatalog) (s : AdbcSchemaEntry) (bind : BindTable) :
    (s.scan c.noSchemas .tableEntry
      (fetchTableNames (answering schemas tables) c.catalogName c.noSchemas) bind).2.tablesLoaded =
      true := by
  rcases AdbcSchemaEntry.scan_cases c.noSchemas
      (fetchTableNames (answering schemas tables) c.catalogName c.noSchemas) bind s with
    ⟨hloaded, he⟩ | ⟨_, e, hfetch, _⟩ | ⟨_, names, _, he⟩
  · rw [he]
    exact hloaded
  · rw [fetchTableNames_answering] at hfetch
    cases hfetch
  · rw [he]

/-- **When a failed fetch is not taken for a complete one.**  An error at the end of a listing of
schemas or of tables is raised, and the cache that it would have filled left as it is, only if there
is none: both streams must end well.  After any listing, whether complete or not, the flags say that
the names and the tables are loaded. -/
theorem raisesFailure_iff (c : AdbcCatalog) (s : AdbcSchemaEntry) (bind : BindTable) :
    (RaisesFailure c s bind schemas tables ↔
      schemas.ending = .endOfStream ∧ tables.ending = .endOfStream) ∧
    (c.getCachedSchemaNames (answering schemas tables)).2.schemaNamesLoaded = true ∧
    (s.scan c.noSchemas .tableEntry
      (fetchTableNames (answering schemas tables) c.catalogName c.noSchemas) bind).2.tablesLoaded =
      true := by
  refine ⟨⟨fun h => ⟨?_, ?_⟩, ?_⟩, getCachedSchemaNames_loaded schemas tables c,
    scan_loaded schemas tables c s bind⟩
  · by_contra hfailed
    obtain ⟨e, he⟩ := h.fetchSchemaNames hfailed
    rw [fetchSchemaNames_answering] at he
    cases he
  · by_contra hfailed
    obtain ⟨e, he⟩ := h.fetchTableNames hfailed s.name
    rw [fetchTableNames_answering] at he
    cases he
  · rintro ⟨hschemas, htables⟩
    exact ⟨absurd hschemas, absurd hschemas, absurd htables, absurd htables⟩

/-- A listing of tables that breaks off after a batch with one table: its failure is not raised. -/
theorem broken_listing_not_raised :
    ¬ RaisesFailure ⟨"", false, ∅, ["main"], true⟩ (.new "main") (fun _ => some [])
      ⟨[], .endOfStream, by decide⟩
      ⟨[⟨1, 0, none, [], [],
          [⟨1, 0, none, [0, 1], [], []⟩,
            ⟨1, 0, none, [0, 1], [],
              [⟨1, 0, none, [], [],
                [⟨1, 0, none, [0, 4], ['m', 'a', 'i', 'n'], []⟩,
                  ⟨1, 0, none, [0, 1], [],
                    [⟨1, 0, none, [], [],
                      [⟨1, 0, none, [0, 1], ['t'], []⟩]⟩]⟩]⟩]⟩]⟩],
        .error 5 (by decide), by decide⟩ := by
  intro h
  obtain ⟨e, he⟩ := h.fetchTableNames (by decide) "main"
  rw [fetchTableNames_answering] at he
  cases he

end AdbcCatalog

end AdbcClient
