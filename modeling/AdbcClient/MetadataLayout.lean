import AdbcClient.MetadataFetch
import AdbcClient.VariableLayout

/-!
# The layout of metadata

A batch of a `GetObjects` answer, laid out as the Arrow C data interface and the schema in
`adbc.h` allow: every array on the way to a name may have an offset and a validity bitmap.
The offsets of a name count bytes, each of which is a `Char`.
`MetadataBatch.value` is what such a batch means, and `schemaNamesIn` and `tableNamesIn`
are the names in it, in order.

The callbacks of `FetchSchemaNames` and `FetchTableNames` look at offset buffers only.
`SlotsRead` says that they find the slots of the names there, and `decodes_iff` that this
is what it takes to return them.
-/
namespace AdbcClient
open VariableLayout

/-! ## Batches -/

/-- `list<TABLE_SCHEMA>`.  The other fields of a table are not read. -/
structure TableLists where
  tables : NamedStructs
  otherFields : List ArrowArray
  ranges : Ranges tables.length

/-- `DB_SCHEMA_SCHEMA`. -/
structure SchemaStructs extends NamedStructs where
  tableLists : TableLists
  tablesFit : offset + length ≤ tableLists.ranges.length

/-- `list<DB_SCHEMA_SCHEMA>`. -/
structure SchemaLists where
  schemas : SchemaStructs
  ranges : Ranges schemas.length

/-- The result of `AdbcConnectionGetObjects`: one array, from the catalogs down to the tables. -/
structure MetadataBatch extends NamedStructs where
  schemaLists : SchemaLists
  schemasFit : offset + length ≤ schemaLists.ranges.length

/-- Natural numbers as the `int32_t` values of a buffer. -/
def ints (ns : List Nat) : List Int := ns.map fun n : Nat => (n : Int)

@[simp] theorem ints_nil : ints [] = [] := rfl

@[simp] theorem ints_cons (n : Nat) (ns : List Nat) : ints (n :: ns) = (n : Int) :: ints ns := rfl

@[simp] theorem ints_append (ns ms : List Nat) : ints (ns ++ ms) = ints ns ++ ints ms :=
  List.map_append

/-- An array in memory, with the buffers and children that the callbacks look at. -/
def arrayOf (a : Header) (offsets : List Nat) (data : List Char) (children : List ArrowArray) :
    ArrowArray where
  length := a.length
  offset := a.offset
  validity := a.validity
  offsets := ints offsets
  data := data
  children := children

def stringArray (a : Strings) : ArrowArray := arrayOf a.ranges.toHeader a.ranges.offsets a.data []

def structArray (a : NamedStructs) (otherFields : List ArrowArray) : ArrowArray :=
  arrayOf a.toHeader [] [] (stringArray a.names :: otherFields)

def listArray {limit : Nat} (a : Ranges limit) (items : ArrowArray) : ArrowArray :=
  arrayOf a.toHeader a.offsets [] [items]

def TableLists.toArrow (a : TableLists) : ArrowArray :=
  listArray a.ranges (structArray a.tables a.otherFields)

def SchemaLists.toArrow (a : SchemaLists) : ArrowArray :=
  listArray a.ranges (structArray a.schemas.toNamedStructs [a.schemas.tableLists.toArrow])

def MetadataBatch.toArrow (b : MetadataBatch) : ArrowArray :=
  structArray b.toNamedStructs [b.schemaLists.toArrow]

/-! ## What a batch means -/

/-- A schema as a batch says it: its name and the names of its tables, where `none` stands for null.
-/
structure SchemaValue where
  name : Option String
  tables : Option (List (Option String))
  deriving DecidableEq, Repr

/-- A catalog as a batch says it: its name and its list of schemas, where `none` stands for null. -/
structure CatalogValue where
  name : Option String
  schemas : Option (List SchemaValue)
  deriving DecidableEq, Repr

/-- The names of the schemas, in order.  A name that is null reads as the empty string. -/
def schemaNamesIn (catalogs : List CatalogValue) : List String :=
  catalogs.flatMap fun c => (c.schemas.getD []).map fun s => s.name.getD ""

/-- The names of the tables, in order. -/
def tableNamesIn (catalogs : List CatalogValue) : List String :=
  catalogs.flatMap fun c => (c.schemas.getD []).flatMap fun s =>
    (s.tables.getD []).map fun t => t.getD ""

/-- The names of that depth, in order. -/
def namesIn : ObjectDepth → List CatalogValue → List String
  | .dbSchemas => schemaNamesIn
  | .tables => tableNamesIn

/-- The tables of a schema, as positions in the array of tables. -/
def SchemaStructs.tablesAt (a : SchemaStructs) (k : Nat) : Option (List Nat) :=
  if a.isValid k then a.tableLists.ranges.value (a.offset + k) else none

def SchemaStructs.value (a : SchemaStructs) (k : Nat) : SchemaValue where
  name := a.name k
  tables := (a.tablesAt k).map fun ms => ms.map a.tableLists.tables.name

namespace MetadataBatch
variable (b : MetadataBatch)

/-- The array of schemas of a batch, of which every catalog has a range. -/
abbrev schemas : SchemaStructs := b.schemaLists.schemas

/-- The array of tables of a batch, of which every schema has a range. -/
abbrev tables : NamedStructs := b.schemas.tableLists.tables

/-- The schemas of a catalog, as positions in the array of schemas. -/
def schemasAt (i : Nat) : Option (List Nat) :=
  if b.isValid i then b.schemaLists.ranges.value (b.offset + i) else none

/-- The catalogs that a batch means, in order, as its offsets, ranges and bitmaps say. -/
def value : List CatalogValue :=
  (List.range b.length).map fun i =>
    { name := b.name i
      schemas := (b.schemasAt i).map fun ks => ks.map b.schemas.value }

/-- The schemas in the lists that are not null. -/
def listedSchemas : List Nat := (List.range b.length).flatMap fun i => (b.schemasAt i).getD []

/-- The tables in the lists that are not null. -/
def listedTables : List Nat := b.listedSchemas.flatMap fun k => (b.schemas.tablesAt k).getD []

theorem schemaNamesIn_value :
    schemaNamesIn b.value = b.listedSchemas.map fun k => (b.schemas.name k).getD "" := by
  rw [schemaNamesIn, value, listedSchemas, List.flatMap_map, List.map_flatMap]
  refine List.flatMap_congr fun i _ => ?_
  cases b.schemasAt i with
  | none => rfl
  | some ks => exact List.map_map

theorem tableNamesIn_value :
    tableNamesIn b.value = b.listedTables.map fun m => (b.tables.name m).getD "" := by
  rw [tableNamesIn, value, listedTables, listedSchemas, List.flatMap_map, List.map_flatMap,
    List.flatMap_assoc]
  refine List.flatMap_congr fun i _ => ?_
  cases b.schemasAt i with
  | none => rfl
  | some ks =>
    show (ks.map _).flatMap _ = ks.flatMap _
    rw [List.flatMap_map]
    refine List.flatMap_congr fun k _ => ?_
    show (((b.schemas.tablesAt k).map _).getD []).map _ = _
    cases b.schemas.tablesAt k with
    | none => rfl
    | some ms => exact List.map_map

theorem lt_of_mem_listedSchemas {k : Nat} (hk : k ∈ b.listedSchemas) : k < b.schemas.length := by
  obtain ⟨i, hi, hk⟩ := List.mem_flatMap.mp hk
  rw [List.mem_range] at hi
  have hfit := b.schemasFit
  cases hat : b.schemasAt i with
  | none => simp [hat] at hk
  | some ks =>
    rw [hat, Option.getD_some, ← Ranges.positions_of_value _ hat] at hk
    exact b.schemaLists.ranges.lt_of_mem_positions (by omega) hk

theorem lt_of_mem_listedTables {m : Nat} (hm : m ∈ b.listedTables) : m < b.tables.length := by
  obtain ⟨k, hk, hm⟩ := List.mem_flatMap.mp hm
  have hk := b.lt_of_mem_listedSchemas hk
  have hfit := b.schemas.tablesFit
  cases hat : b.schemas.tablesAt k with
  | none => simp [hat] at hm
  | some ms =>
    rw [hat, Option.getD_some, ← Ranges.positions_of_value _ hat] at hm
    exact b.schemas.tableLists.ranges.lt_of_mem_positions (by omega) hm

end MetadataBatch

/-! ## Laying catalogs out -/

/-- Schemas laid out one after the other, with their tables. -/
def SchemaStructs.ofSchemas (schemas : List SchemaValue) : SchemaStructs where
  toNamedStructs := .ofNames (schemas.map SchemaValue.name)
  tableLists :=
    { tables := .ofNames (concat (schemas.map SchemaValue.tables))
      otherFields := []
      ranges := .ofLists (schemas.map SchemaValue.tables) (Nat.le_refl _) }
  tablesFit := by
    show 0 + (schemas.map SchemaValue.name).length ≤ (schemas.map SchemaValue.tables).length
    simp

theorem SchemaStructs.value_ofSchemas {schemas : List SchemaValue} {k : Nat}
    (hk : k < schemas.length) : (SchemaStructs.ofSchemas schemas).value k = schemas[k] := by
  have hname : (SchemaStructs.ofSchemas schemas).name k = schemas[k].name := by
    refine (name_ofNames (by rwa [List.length_map])).trans ?_
    rw [List.getElem_map]
  have htables : ((SchemaStructs.ofSchemas schemas).tablesAt k).map (List.map
      (SchemaStructs.ofSchemas schemas).tableLists.tables.name) = schemas[k].tables := by
    have hk' : k < (schemas.map SchemaValue.tables).length := by rwa [List.length_map]
    show ((Ranges.ofLists (schemas.map SchemaValue.tables) (Nat.le_refl _)).value (0 + k)).map
      (List.map (NamedStructs.ofNames (concat (schemas.map SchemaValue.tables))).name) = _
    have hread := value_ofLists (g := fun name => name) (Nat.le_refl _) (fun m name hm => by
      obtain ⟨hlt, rfl⟩ := List.getElem?_eq_some_iff.mp hm
      exact name_ofNames hlt) hk'
    rw [Nat.zero_add, hread, List.getElem_map]
    simp
  rw [SchemaStructs.value, hname, htables]

theorem SchemaStructs.length_ofSchemas (schemas : List SchemaValue) :
    schemas.length ≤ (SchemaStructs.ofSchemas schemas).length :=
  Nat.le_of_eq (List.length_map _).symm

namespace MetadataBatch

/-- Catalogs laid out one after the other, with all that is in them. -/
def ofCatalogs (catalogs : List CatalogValue) : MetadataBatch where
  toNamedStructs := .ofNames (catalogs.map CatalogValue.name)
  schemaLists :=
    { schemas := .ofSchemas (concat (catalogs.map CatalogValue.schemas))
      ranges := .ofLists (catalogs.map CatalogValue.schemas) (SchemaStructs.length_ofSchemas _) }
  schemasFit := by
    show 0 + (catalogs.map CatalogValue.name).length ≤ (catalogs.map CatalogValue.schemas).length
    simp

variable (catalogs : List CatalogValue)

theorem schemasAt_ofCatalogs (i : Nat) : (ofCatalogs catalogs).schemasAt i =
    (Ranges.ofLists (catalogs.map CatalogValue.schemas)
      (SchemaStructs.length_ofSchemas _)).value i := by
  show Ranges.value _ (0 + i) = _
  rw [Nat.zero_add]
  rfl

/-- **Catalogs read back.**  Hence every list of catalogs is the value of some batch. -/
theorem value_ofCatalogs : (ofCatalogs catalogs).value = catalogs := by
  have hlength : (ofCatalogs catalogs).length = catalogs.length := List.length_map _
  refine List.ext_getElem (by rw [value, List.length_map, List.length_range, hlength])
    fun i _ hi => ?_
  have hname : (ofCatalogs catalogs).name i = catalogs[i].name := by
    refine (name_ofNames (by rwa [List.length_map])).trans ?_
    rw [List.getElem_map]
  have hschemas : ((ofCatalogs catalogs).schemasAt i).map
      (List.map (ofCatalogs catalogs).schemas.value) = catalogs[i].schemas := by
    have hi' : i < (catalogs.map CatalogValue.schemas).length := by rwa [List.length_map]
    have hread := value_ofLists (g := fun schema => schema) (SchemaStructs.length_ofSchemas _)
      (fun k schema hk => by
        obtain ⟨hlt, rfl⟩ := List.getElem?_eq_some_iff.mp hk
        exact SchemaStructs.value_ofSchemas hlt) hi'
    rw [schemasAt_ofCatalogs]
    refine hread.trans ?_
    rw [List.getElem_map]
    simp
  simp only [value, List.getElem_map, List.getElem_range, hname, hschemas]

end MetadataBatch

/-! ## What the callbacks read -/

theorem indices_cast (start stop : Nat) : indices start stop = ints (between start stop) := by
  have hlength : ((stop : Int) - start).toNat = stop - start := by omega
  rw [indices, hlength, between, List.range'_eq_map_range, ints]
  simp [Function.comp_def, ← List.map_eq_flatMap]

theorem readOffset_ints (offsets : List Nat) (p : Nat) :
    readOffset (ints offsets) p = offsets[p]?.map fun n : Nat => (n : Int) := by
  rw [readOffset, if_pos (Int.natCast_nonneg p), Int.toNat_natCast, ints, List.getElem?_map]

theorem collect_append (read : Int → Option (List String)) (is js : List Int) :
    collect read (is ++ js) =
      (collect read is).bind fun names => (collect read js).map fun rest => names ++ rest := by
  induction is with
  | nil => cases h : collect read js <;> simp [collect, h]
  | cons i is ih =>
    rw [List.cons_append, collect, collect, ih]
    cases read i with
    | none => rfl
    | some names =>
      cases collect read is with
      | none => rfl
      | some names' => cases collect read js <;> simp

/-- A loop whose steps run an inner loop over what a slot delimits runs the inner loop
over what the walk finds. -/
theorem collect_walk {read inner : Int → Option (List String)} {offsets : List Nat}
    (hread : ∀ p : Nat, read p = offsets[p]?.bind fun start => offsets[p + 1]?.bind fun stop =>
      collect inner (ints (between start stop))) (ps : List Nat) :
    collect read (ints ps) = (walk offsets ps).bind fun qs => collect inner (ints qs) := by
  induction ps with
  | nil => rfl
  | cons p ps ih =>
    rw [ints_cons, collect, ih, hread, walk]
    cases offsets[p]? with
    | none => rfl
    | some start =>
      cases offsets[p + 1]? with
      | none => rfl
      | some stop =>
        cases walk offsets ps with
        | none => simp
        | some rest =>
          simp only [Option.bind_eq_bind, Option.bind_some, Option.pure_def, ints_append,
            collect_append]
          cases collect inner (ints (between start stop)) with
          | none => rfl
          | some names => cases collect inner (ints rest) <;> rfl

/-- The step of `readNames`: the name in one slot of the array, as the offset buffer delimits it. -/
def readNameAt (names : ArrowArray) (k : Int) : Option (List String) := do
  let nameStart ← readOffset names.offsets k
  let nameEnd ← readOffset names.offsets (k + 1)
  let name ← readName names.data nameStart nameEnd
  return [name]

/-- The innermost loop reads the texts of slots. -/
theorem collect_readNameAt (a : Strings) (ps : List Nat) :
    collect (readNameAt (stringArray a)) (ints ps) = a.readTexts ps := by
  induction ps with
  | nil => rfl
  | cons p ps ih =>
    have hnext : ((p : Int) + 1) = ((p + 1 : Nat) : Int) := rfl
    have hoffsets : (stringArray a).offsets = ints a.ranges.offsets := rfl
    have hdata : (stringArray a).data = a.data := rfl
    rw [ints_cons, collect, ih, Strings.readTexts, Strings.readText, readNameAt]
    simp only [hoffsets, hdata, hnext, readOffset_ints]
    cases a.ranges.offsets[p]? with
    | none => rfl
    | some start =>
      cases a.ranges.offsets[p + 1]? with
      | none => rfl
      | some stop =>
        have hlength : ((stop : Int) - start).toNat = stop - start := by omega
        simp only [Option.map_some, Option.bind_eq_bind, Option.bind_some, readName,
          Int.toNat_natCast, hlength, Int.natCast_nonneg, true_and, Int.ofNat_le]
        split <;> rfl

/-- A step that reads a slot and runs a loop over what it delimits. -/
theorem readSlot_ints (offsets : List Nat) (inner : Int → Option (List String)) (p : Nat) :
    (readOffset (ints offsets) p).bind (fun start =>
      (readOffset (ints offsets) (p + 1)).bind fun stop => collect inner (indices start stop)) =
      offsets[p]?.bind fun start => offsets[p + 1]?.bind fun stop =>
        collect inner (ints (between start stop)) := by
  have hnext : ((p : Int) + 1) = ((p + 1 : Nat) : Int) := rfl
  rw [hnext, readOffset_ints, readOffset_ints]
  cases offsets[p]? with
  | none => rfl
  | some start =>
    cases offsets[p + 1]? with
    | none => rfl
    | some stop => exact congrArg _ (indices_cast start stop)

namespace MetadataBatch
variable (b : MetadataBatch)

/-- The slots that the loops over the catalogs come to in the array of schemas. -/
def walkedSchemas : Option (List Nat) := walk b.schemaLists.ranges.offsets (List.range b.length)

/-- The slots that the loops over the schemas come to in the array of tables. -/
def walkedTables : Option (List Nat) :=
  b.walkedSchemas.bind (walk b.schemas.tableLists.ranges.offsets)

theorem indices_length : indices 0 b.toArrow.length = ints (List.range b.length) := by
  have hindices := indices_cast 0 b.length
  rw [between, Nat.sub_zero, ← List.range_eq_range'] at hindices
  exact hindices

/-- **What `FetchSchemaNames` reads of a batch**: the texts of the slots that its walk over the
offset buffers comes to. -/
theorem schemaNamesOf_toArrow :
    schemaNamesOf b.toArrow = b.walkedSchemas.bind b.schemas.names.readTexts := by
  show collect _ (indices 0 b.toArrow.length) = _
  rw [indices_length, collect_walk fun p => readSlot_ints b.schemaLists.ranges.offsets
    (readNameAt (stringArray b.schemas.names)) p]
  exact congrArg _ (funext fun ps => collect_readNameAt b.schemas.names ps)

/-- **What `FetchTableNames` reads of a batch**: the texts of the slots that its walk over the
offset buffers comes to. -/
theorem tableNamesOf_toArrow :
    tableNamesOf b.toArrow = b.walkedTables.bind b.tables.names.readTexts := by
  have htables : ∀ ps : List Nat, collect (fun j =>
      (readOffset (ints b.schemas.tableLists.ranges.offsets) j).bind fun start =>
        (readOffset (ints b.schemas.tableLists.ranges.offsets) (j + 1)).bind fun stop =>
          collect (readNameAt (stringArray b.tables.names)) (indices start stop)) (ints ps) =
      (walk b.schemas.tableLists.ranges.offsets ps).bind b.tables.names.readTexts := by
    intro ps
    rw [collect_walk fun p => readSlot_ints b.schemas.tableLists.ranges.offsets
      (readNameAt (stringArray b.tables.names)) p]
    exact congrArg _ (funext fun qs => collect_readNameAt b.tables.names qs)
  show collect _ (indices 0 b.toArrow.length) = _
  rw [indices_length, walkedTables, Option.bind_assoc, collect_walk fun p =>
    readSlot_ints b.schemaLists.ranges.offsets _ p]
  exact congrArg _ (funext htables)

/-! ## When the names are those of the batch -/

/-- The structs with the names of that depth. -/
def named : ObjectDepth → NamedStructs
  | .dbSchemas => b.schemas.toNamedStructs
  | .tables => b.tables

/-- Their positions, in the lists that are not null. -/
def listed : ObjectDepth → List Nat
  | .dbSchemas => b.listedSchemas
  | .tables => b.listedTables

/-- The positions that the loops come to. -/
def walked : ObjectDepth → Option (List Nat)
  | .dbSchemas => b.walkedSchemas
  | .tables => b.walkedTables

/-- The callback returns the names in the batch, and reads inside of the buffers. -/
def Decodes (depth : ObjectDepth) : Prop :=
  depth.namesOf b.toArrow = some (namesIn depth b.value)

instance (depth : ObjectDepth) : Decidable (b.Decodes depth) :=
  inferInstanceAs (Decidable (_ = some _))

/-- The entries of the offset buffers from the first one on, whatever the offsets of the
arrays and their bitmaps are, delimit the slots of the names. -/
def SlotsRead (depth : ObjectDepth) : Prop :=
  b.walked depth = some ((b.listed depth).map (b.named depth).nameSlot)

instance (depth : ObjectDepth) : Decidable (b.SlotsRead depth) :=
  inferInstanceAs (Decidable (_ = some _))

/-- No text belongs to a name that is null. -/
def NullsEmpty (depth : ObjectDepth) : Prop := (b.named depth).NullsEmpty (b.listed depth)

/-- Every name slot has a text of its own, and no name is null. -/
def Telling (depth : ObjectDepth) : Prop := (b.named depth).Telling

theorem lt_of_mem_listed {depth : ObjectDepth} {k : Nat} (hk : k ∈ b.listed depth) :
    k < (b.named depth).length := by
  cases depth with
  | dbSchemas => exact b.lt_of_mem_listedSchemas hk
  | tables => exact b.lt_of_mem_listedTables hk

/-- Decoding a batch is reading the texts in the slots that the loops come to. -/
theorem decodes_iff_readTexts (depth : ObjectDepth) :
    b.Decodes depth ↔ (b.walked depth).bind (b.named depth).names.readTexts =
      some ((b.listed depth).map fun k => ((b.named depth).name k).getD "") := by
  cases depth with
  | dbSchemas =>
    show schemaNamesOf b.toArrow = some (schemaNamesIn b.value) ↔ _
    rw [schemaNamesOf_toArrow, schemaNamesIn_value]
    rfl
  | tables =>
    show tableNamesOf b.toArrow = some (tableNamesIn b.value) ↔ _
    rw [tableNamesOf_toArrow, tableNamesIn_value]
    rfl

variable {b} in
theorem SlotsRead.decodes {depth : ObjectDepth} (h : b.SlotsRead depth)
    (hnulls : b.NullsEmpty depth) : b.Decodes depth := by
  have hread := (b.named depth).reads_names_iff (b.walked depth) fun k => b.lt_of_mem_listed
  rw [decodes_iff_readTexts]
  exact (hread.1 h).mpr hnulls

/-- No array on the way to a name is sliced, and null lists are empty. -/
structure Unsliced : Prop where
  batch : b.offset = 0
  schemaLists : b.schemaLists.ranges.offset = 0
  schemas : b.schemas.offset = 0
  schemaNames : b.schemas.names.ranges.offset = 0
  tableLists : b.schemas.tableLists.ranges.offset = 0
  tables : b.tables.offset = 0
  tableNames : b.tables.names.ranges.offset = 0
  noSchemas : ∀ i < b.length, b.schemasAt i = none → b.schemaLists.ranges.positions i = []
  noTables : ∀ k < b.schemas.length, b.schemas.tablesAt k = none →
    b.schemas.tableLists.ranges.positions k = []

variable {b}

theorem Unsliced.walkedSchemas_eq (h : b.Unsliced) : b.walkedSchemas = some b.listedSchemas := by
  have hfit := b.schemasFit
  refine Ranges.walk_elements _ h.schemaLists (fun i hi => ?_) (fun i hi ks hat => ?_)
    (fun i hi hat => ?_)
  all_goals rw [List.mem_range] at hi
  · omega
  · have hpositions := Ranges.positions_of_value _ hat
    rwa [h.batch, Nat.zero_add] at hpositions
  · exact h.noSchemas i hi hat

theorem Unsliced.walkedTables_eq (h : b.Unsliced) : b.walkedTables = some b.listedTables := by
  have hfit := b.schemas.tablesFit
  rw [walkedTables, h.walkedSchemas_eq, Option.bind_some]
  refine Ranges.walk_elements _ h.tableLists (fun k hk => ?_) (fun k hk ms hat => ?_)
    (fun k hk hat => ?_)
  all_goals have hlt := b.lt_of_mem_listedSchemas hk
  · omega
  · have hpositions := Ranges.positions_of_value _ hat
    rwa [h.schemas, Nat.zero_add] at hpositions
  · exact h.noTables k hlt hat

/-- The slots of the names are read in batches that are not sliced. -/
theorem Unsliced.slotsRead (h : b.Unsliced) (depth : ObjectDepth) : b.SlotsRead depth := by
  cases depth with
  | dbSchemas =>
    have hslot : ∀ k, b.schemas.nameSlot k = k := fun k => by
      rw [NamedStructs.nameSlot, h.schemaNames, h.schemas, Nat.zero_add, Nat.zero_add]
    show b.walkedSchemas = some (b.listedSchemas.map b.schemas.nameSlot)
    rw [h.walkedSchemas_eq, List.map_id'' hslot]
  | tables =>
    have hslot : ∀ m, b.tables.nameSlot m = m := fun m => by
      rw [NamedStructs.nameSlot, h.tableNames, h.tables, Nat.zero_add, Nat.zero_add]
    show b.walkedTables = some (b.listedTables.map b.tables.nameSlot)
    rw [h.walkedTables_eq, List.map_id'' hslot]

variable (catalogs : List CatalogValue)

theorem unsliced_ofCatalogs : (ofCatalogs catalogs).Unsliced where
  batch := rfl
  schemaLists := rfl
  schemas := rfl
  schemaNames := rfl
  tableLists := rfl
  tables := rfl
  tableNames := rfl
  noSchemas i hi hnull := by
    rw [schemasAt_ofCatalogs] at hnull
    have hlength : (ofCatalogs catalogs).length = (catalogs.map CatalogValue.schemas).length := by
      simp [ofCatalogs, NamedStructs.ofNames]
    exact positions_of_null _ (hlength ▸ hi) hnull
  noTables k hk hnull := by
    have hlength : (ofCatalogs catalogs).schemas.length =
        ((concat (catalogs.map CatalogValue.schemas)).map SchemaValue.tables).length := by
      simp [ofCatalogs, SchemaStructs.ofSchemas, NamedStructs.ofNames]
    have htables : (ofCatalogs catalogs).schemas.tablesAt k = Ranges.value
        (.ofLists ((concat (catalogs.map CatalogValue.schemas)).map SchemaValue.tables)
          (Nat.le_refl _)) (0 + k) := rfl
    rw [htables, Nat.zero_add] at hnull
    exact positions_of_null _ (hlength ▸ hk) hnull

theorem nullsEmpty_ofCatalogs (depth : ObjectDepth) : (ofCatalogs catalogs).NullsEmpty depth := by
  cases depth with
  | dbSchemas =>
    refine nullsEmpty_ofNames fun k hk => ?_
    exact (ofCatalogs catalogs).lt_of_mem_listedSchemas hk
  | tables =>
    refine nullsEmpty_ofNames fun m hm => ?_
    exact (ofCatalogs catalogs).lt_of_mem_listedTables hm

/-- A batch that is written without offsets, and without nulls that hold a text, is decoded. -/
theorem decodes_ofCatalogs (depth : ObjectDepth) : (ofCatalogs catalogs).Decodes depth :=
  ((unsliced_ofCatalogs catalogs).slotsRead depth).decodes (nullsEmpty_ofCatalogs catalogs depth)

variable (b) in
/-- **When a batch is decoded.**  If the slots that the callbacks read are those of the names, then
they return the names of the batch exactly if no text belongs to a null name.  If no name is null
and every slot has a text of its own, they return the names exactly if they read those slots. -/
theorem decodes_iff (depth : ObjectDepth) :
    (b.SlotsRead depth → (b.Decodes depth ↔ b.NullsEmpty depth)) ∧
      (b.Telling depth → (b.Decodes depth ↔ b.SlotsRead depth)) := by
  rw [decodes_iff_readTexts]
  exact (b.named depth).reads_names_iff (b.walked depth) fun k => b.lt_of_mem_listed

/-- A catalog with one schema, `a`, in a slice of an array that holds another name too. -/
def slicedBatch (other : String) : MetadataBatch where
  toNamedStructs := .ofNames [some "db"]
  schemaLists :=
    { schemas :=
        { length := 1
          offset := 1
          validity := none
          covered := nofun
          names := .ofTexts [some other, some "a"]
          namesFit := Nat.le_refl 2
          tableLists := (SchemaStructs.ofSchemas [⟨none, none⟩, ⟨none, none⟩]).tableLists
          tablesFit := by decide }
      ranges := .ofLists [some [()]] (Nat.le_refl 1) }
  schemasFit := Nat.le_refl 1

theorem slicedBatch_telling : (slicedBatch "x").Telling .dbSchemas where
  valid := by decide
  distinct := by
    have hread : ∀ p text, (slicedBatch "x").schemas.names.readText p = some text →
        (p = 0 ∧ text = "x") ∨ (p = 1 ∧ text = "a") := by
      rintro (_ | _ | p) text htext
      · exact .inl ⟨rfl, (Option.some.inj htext).symm⟩
      · exact .inr ⟨rfl, (Option.some.inj htext).symm⟩
      · cases p <;> cases htext
    intro p q text hp hq
    rcases hread p text hp with ⟨rfl, rfl⟩ | ⟨rfl, rfl⟩
    · rcases hread q _ hq with ⟨rfl, -⟩ | ⟨-, htext⟩
      · rfl
      · exact absurd htext (by decide)
    · rcases hread q _ hq with ⟨-, htext⟩ | ⟨rfl, -⟩
      · exact absurd htext (by decide)
      · rfl

/-- A batch that is decoded, and the sliced one, which is not. -/
theorem whole_decoded_sliced_not :
    (ofCatalogs [⟨some "db", some [⟨some "a", none⟩]⟩]).Decodes .dbSchemas ∧
      ¬ (slicedBatch "x").Decodes .dbSchemas := by
  have hslots := (unsliced_ofCatalogs [⟨some "db", some [⟨some "a", none⟩]⟩]).slotsRead .dbSchemas
  have hsliced : ¬ (slicedBatch "x").SlotsRead .dbSchemas := by decide
  exact ⟨((decodes_iff _ .dbSchemas).1 hslots).mpr (nullsEmpty_ofCatalogs _ _),
    fun h => hsliced (((decodes_iff _ .dbSchemas).2 slicedBatch_telling).mp h)⟩

/-- A catalog of which the list of schemas is null, in a slot that delimits one. -/
def nullListBatch : MetadataBatch where
  toNamedStructs := .ofNames [some "db"]
  schemaLists :=
    { schemas := .ofSchemas [⟨some "x", none⟩]
      ranges :=
        { length := 1
          offset := 0
          validity := some [false]
          covered := by decide
          offsets := [0, 1]
          size := by decide
          sorted := by decide
          bounded := by decide } }
  schemasFit := by decide

/-- Of these batches other names are read than they have. -/
theorem offset_and_null_misread :
    (schemaNamesOf (slicedBatch "x").toArrow = some ["x"] ∧
        schemaNamesIn (slicedBatch "x").value = ["a"]) ∧
      (schemaNamesOf nullListBatch.toArrow = some ["x"] ∧
        schemaNamesIn nullListBatch.value = []) ∧
      ¬ (slicedBatch "x").Decodes .dbSchemas ∧ ¬ nullListBatch.Decodes .dbSchemas := by
  decide

/-- The wrong slot may hold the right text. -/
example : (slicedBatch "a").Decodes .dbSchemas ∧ ¬ (slicedBatch "a").SlotsRead .dbSchemas := by
  decide

end MetadataBatch

end AdbcClient
