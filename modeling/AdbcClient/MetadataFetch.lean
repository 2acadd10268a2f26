import AdbcClient.QueryText

/-!
# Fetching metadata

Names of schemas and tables come from `AdbcConnectionGetObjects`, which answers
with a stream of nested Arrow arrays: catalogs hold lists of schemas, schemas hold
lists of tables.  `FetchSchemaNames` and `FetchTableNames` walk the offset buffers
of each batch, and `ForEachCatalog` gives them the batches one after the other
(`adbc_catalog.cpp`).

The loops index raw buffers; a data buffer is the list of its bytes, a `Char` for each.  A read that leaves its buffer is `none` here, and an
`ObjectsStream` carries the proof that no batch of it leads there: it is laid out
as the ADBC specification says.
-/
namespace AdbcClient

/-- `ArrowArray`, with the buffers of the layouts that metadata uses: `validity` is
`buffers[0]`, `offsets` is `buffers[1]` of a list or a string array, and `data` is
`buffers[2]` of a string array. -/
structure ArrowArray where
  length : Int
  offset : Int
  validity : Option (List Bool)
  offsets : List Int
  data : List Char
  children : List ArrowArray

/-! ## Walking a batch -/

/-- `buffer[i]`. -/
def readOffset (buffer : List Int) (i : Int) : Option Int :=
  if 0 ≤ i then buffer[i.toNat]? else none

/-- `string(data + start, stop - start)`. -/
def readName (data : List Char) (start stop : Int) : Option String :=
  if 0 ≤ start ∧ start ≤ stop ∧ stop ≤ data.length then
    some (String.ofList ((data.drop start.toNat).take (stop - start).toNat))
  else none

/-- The values of a loop variable that runs from `start` up to `stop`. -/
def indices (start stop : Int) : List Int :=
  (List.range (stop - start).toNat).map (fun k => start + (k : Int))

/-- A loop that appends the names each step reads. -/
def collect (read : Int → Option (List String)) : List Int → Option (List String)
  | [] => some []
  | i :: is => do
    let names ← read i
    let rest ← collect read is
    return names ++ rest

/-- The innermost loop of both walks: the names of a string array. -/
def readNames (names : ArrowArray) (start stop : Int) : Option (List String) :=
  collect (fun k => do
    let nameStart ← readOffset names.offsets k
    let nameEnd ← readOffset names.offsets (k + 1)
    let name ← readName names.data nameStart nameEnd
    return [name]) (indices start stop)

/-- The callback of `FetchSchemaNames`: the names it finds in a batch. -/
def schemaNamesOf (batch : ArrowArray) : Option (List String) := do
  let catalogSchemasList ← batch.children[1]?
  collect (fun i => do
    let startIdx ← readOffset catalogSchemasList.offsets i
    let endIdx ← readOffset catalogSchemasList.offsets (i + 1)
    let schemasStruct ← catalogSchemasList.children[0]?
    let nameArray ← schemasStruct.children[0]?
    readNames nameArray startIdx endIdx) (indices 0 batch.length)

/-- The callback of `FetchTableNames`: the names of the tables in a batch, or nothing if a read
leaves its buffer. -/
def tableNamesOf (batch : ArrowArray) : Option (List String) := do
  let catalogSchemasList ← batch.children[1]?
  collect (fun i => do
    let schemaStart ← readOffset catalogSchemasList.offsets i
    let schemaEnd ← readOffset catalogSchemasList.offsets (i + 1)
    let schemasStruct ← catalogSchemasList.children[0]?
    collect (fun j => do
      let tablesList ← schemasStruct.children[1]?
      let tableStart ← readOffset tablesList.offsets j
      let tableEnd ← readOffset tablesList.offsets (j + 1)
      let tableStruct ← tablesList.children[0]?
      let tableNamesArray ← tableStruct.children[0]?
      readNames tableNamesArray tableStart tableEnd) (indices schemaStart schemaEnd))
    (indices 0 batch.length)

/-! ## The stream of batches -/

/-- How far down a `GetObjects` request goes, of the depths that the extension asks for. -/
inductive ObjectDepth where
  | dbSchemas
  | tables
  deriving DecidableEq, Repr

/-- The names a batch of that depth is read for. -/
def ObjectDepth.namesOf : ObjectDepth → ArrowArray → Option (List String)
  | dbSchemas => schemaNamesOf
  | tables => tableNamesOf

/-- What `get_next` answers after the last batch: a released array, or an error. -/
inductive StreamEnd where
  | endOfStream
  | error (code : Int) (nonzero : code ≠ 0)
  deriving DecidableEq

/-- The answer to a `GetObjects` request: batches that are laid out as the specification says, and
how the stream ends. -/
structure ObjectsStream (depth : ObjectDepth) where
  batches : List ArrowArray
  ending : StreamEnd
  laidOut : ∀ batch ∈ batches, (depth.namesOf batch).isSome

/-- The names in the batches of a stream. -/
def ObjectsStream.names {depth : ObjectDepth} (stream : ObjectsStream depth) : List String :=
  stream.batches.flatMap (fun batch => (depth.namesOf batch).getD [])

/-- The arguments of `AdbcConnectionGetObjects` that are not null everywhere. -/
structure GetObjectsRequest where
  depth : ObjectDepth
  catalog : Option String
  schema : Option String
  deriving DecidableEq, Repr

/-- What the driver does with each request: it answers, or fails with a message. -/
abbrev GetObjects := (request : GetObjectsRequest) → Except String (ObjectsStream request.depth)

/-- What a fetch can throw.  `outsideBuffer` stands for a read outside a buffer,
which the code does not notice. -/
inductive MetadataError where
  | io (message : String)
  | outsideBuffer
  deriving DecidableEq, Repr

/-- The loop of `ForEachCatalog`.  The callback returns the new value of what it
collects, and whether to go on. -/
def batchLoop {σ : Type} (callback : ArrowArray → σ → Option (σ × Bool)) (ending : StreamEnd) :
    List ArrowArray → σ → Option σ
  | [], collected =>
    -- `get_next(...) != 0 || batch->release == nullptr`: both endings break
    match ending with
    | .endOfStream => some collected
    | .error _ _ => some collected
  | batch :: batches, collected =>
    match callback batch collected with
    | none => none
    | some (collected, false) => some collected
    | some (collected, true) => batchLoop callback ending batches collected

/-- The catalog argument of a request: a null pointer if the connection's catalog has no name. -/
def catalogArgument (catalogName : String) : Option String :=
  if catalogName = "" then none else some catalogName

/-- `ForEachCatalog`. -/
def forEachCatalog {σ : Type} (getObjects : GetObjects) (catalogName : String)
    (schemaName : Option String) (depth : ObjectDepth)
    (callback : ArrowArray → σ → Option (σ × Bool)) (collected : σ) : Except MetadataError σ :=
  match getObjects ⟨depth, catalogArgument catalogName, schemaName⟩ with
  | .error message => .error (.io message)
  | .ok stream =>
    match batchLoop callback stream.ending stream.batches collected with
    | none => .error .outsideBuffer
    | some collected => .ok collected

/-- `schema_names.emplace_back`, for the names of a batch. -/
def appendNames (namesOf : ArrowArray → Option (List String)) (batch : ArrowArray)
    (names : List String) : Option (List String × Bool) :=
  (namesOf batch).map (fun found => (names ++ found, true))

/-- `FetchSchemaNames`. -/
def fetchSchemaNames (getObjects : GetObjects) (catalogName : String) :
    Except MetadataError (List String) :=
  forEachCatalog getObjects catalogName none .dbSchemas (appendNames schemaNamesOf) []

/-- `FetchTableNames`. -/
def fetchTableNames (getObjects : GetObjects) (catalogName : String) (noSchemas : Bool)
    (schemaName : String) : Except MetadataError (List String) :=
  let internalSchema := getInternalSchemaName noSchemas schemaName
  forEachCatalog getObjects catalogName (some internalSchema) .tables (appendNames tableNamesOf) []

/-! ## What a fetch returns -/

/-- The names in the answer to a request. -/
def namesInAnswer {depth : ObjectDepth} :
    Except String (ObjectsStream depth) → Except MetadataError (List String)
  | .error message => .error (.io message)
  | .ok stream => .ok stream.names

/-- The loop stops at either ending of a stream. -/
theorem batchLoop_nil {σ : Type} (callback : ArrowArray → σ → Option (σ × Bool))
    (ending : StreamEnd) (collected : σ) :
    batchLoop callback ending [] collected = some collected := by
  cases ending with
  | endOfStream => rfl
  | error code nonzero => rfl

/-- **The loop collects the names of all batches**, whatever comes after them. -/
theorem batchLoop_appendNames {namesOf : ArrowArray → Option (List String)}
    {batches : List ArrowArray} (h : ∀ batch ∈ batches, (namesOf batch).isSome)
    (ending : StreamEnd) (names : List String) :
    batchLoop (appendNames namesOf) ending batches names =
      some (names ++ batches.flatMap (fun batch => (namesOf batch).getD [])) := by
  induction batches generalizing names with
  | nil => rw [batchLoop_nil, List.flatMap_nil, List.append_nil]
  | cons batch batches ih =>
    obtain ⟨found, hfound⟩ := Option.isSome_iff_exists.mp (h batch List.mem_cons_self)
    have hrest := ih (fun b hb => h b (List.mem_cons_of_mem _ hb)) (names ++ found)
    simp only [batchLoop, appendNames, hfound, Option.map_some, List.flatMap_cons,
      Option.getD_some]
    rw [← List.append_assoc, ← hrest]

theorem forEachCatalog_appendNames (getObjects : GetObjects) (catalogName : String)
    (schemaName : Option String) (depth : ObjectDepth) :
    forEachCatalog getObjects catalogName schemaName depth (appendNames depth.namesOf) [] =
      namesInAnswer (getObjects ⟨depth, catalogArgument catalogName, schemaName⟩) := by
  rw [forEachCatalog]
  generalize getObjects ⟨depth, catalogArgument catalogName, schemaName⟩ = answer
  cases answer with
  | error message => rfl
  | ok stream =>
    simp only [batchLoop_appendNames stream.laidOut, List.nil_append]
    rfl

/-- **What `FetchSchemaNames` returns.**  No read leaves its buffer, and only the
request itself can fail. -/
theorem fetchSchemaNames_eq (getObjects : GetObjects) (catalogName : String) :
    fetchSchemaNames getObjects catalogName =
      namesInAnswer (getObjects ⟨.dbSchemas, catalogArgument catalogName, none⟩) :=
  forEachCatalog_appendNames getObjects catalogName none .dbSchemas

/-- **What `FetchTableNames` returns**: the names in the answer to its one request. -/
theorem fetchTableNames_eq (getObjects : GetObjects) (catalogName : String) (noSchemas : Bool)
    (schemaName : String) :
    fetchTableNames getObjects catalogName noSchemas schemaName =
      namesInAnswer (getObjects ⟨.tables, catalogArgument catalogName,
        some (getInternalSchemaName noSchemas schemaName)⟩) :=
  forEachCatalog_appendNames getObjects catalogName
    (some (getInternalSchemaName noSchemas schemaName)) .tables

end AdbcClient
