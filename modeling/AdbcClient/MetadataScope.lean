import Mathlib.Data.List.Perm.Basic
import AdbcClient.MetadataLayout

/-!
# The scope of metadata

`FetchSchemaNames` and `FetchTableNames` ask for the objects of one catalog, or of one
schema in it, and hand the names over as the catalog and schema arguments of
`GetObjects`.  To the driver these are search patterns (`adbc.h`), and it answers with
every match.  The names of the catalogs and schemas in the answer are not looked at, so
what matches besides the object that was meant is listed as well.  `metadata_scoped_iff`
says when nothing else does.
-/
namespace AdbcClient

/-! ## Search patterns -/

/-- Whether a name matches a search pattern, in which a percent sign stands for any run
of characters and an underscore for one. -/
def matchesPattern : List Char → List Char → Bool
  | [], name => name.isEmpty
  | c :: pattern, name =>
    if c = '%' then name.tails.any (matchesPattern pattern)
    else
      match name with
      | [] => false
      | c' :: rest => (c = '_' || c = c') && matchesPattern pattern rest

/-- Every name matches itself as a pattern, its wildcards included. -/
theorem matchesPattern_self (name : List Char) : matchesPattern name name = true := by
  induction name with
  | nil => rfl
  | cons c name ih =>
    rw [matchesPattern]
    by_cases hc : c = '%'
    · rw [if_pos hc, List.any_eq_true]
      exact ⟨name, by simp [List.mem_tails], ih⟩
    · rw [if_neg hc, ih]
      simp

/-- Whether a name is asked for by an argument, which may be null. -/
def admits (argument : Option String) (name : String) : Bool :=
  match argument with
  | none => true
  | some pattern => matchesPattern pattern.toList name.toList

theorem admits_self (name : String) : admits (some name) name = true :=
  matchesPattern_self name.toList

/-! ## What is there, and what the driver answers -/

/-- A schema of the remote database: its name, and the names of its tables. -/
structure SchemaObjects where
  name : String
  tables : List String
  deriving DecidableEq, Repr

/-- A catalog of the remote database: its name, and its schemas. -/
structure CatalogObjects where
  name : String
  schemas : List SchemaObjects
  deriving DecidableEq, Repr

/-- The objects of the remote database.  No two of them in one place have one name. -/
structure Hierarchy where
  catalogs : List CatalogObjects
  catalogsDistinct : (catalogs.map CatalogObjects.name).Nodup
  schemasDistinct : ∀ c ∈ catalogs, (c.schemas.map SchemaObjects.name).Nodup
  tablesDistinct : ∀ c ∈ catalogs, ∀ s ∈ c.schemas, s.tables.Nodup

/-- A schema in the answer to a request. -/
def SchemaObjects.value (depth : ObjectDepth) (s : SchemaObjects) : SchemaValue where
  name := some s.name
  tables :=
    match depth with
    | .dbSchemas => none
    | .tables => some (s.tables.map some)

/-- A catalog in the answer to a request. -/
def CatalogObjects.value (request : GetObjectsRequest) (c : CatalogObjects) : CatalogValue where
  name := some c.name
  schemas := some ((c.schemas.filter fun s => admits request.schema s.name).map
    (SchemaObjects.value request.depth))

namespace Hierarchy
variable (h : Hierarchy)

/-- Everything in the remote database that matches a request: the catalogs with those schemas and
tables whose names match. -/
def search (request : GetObjectsRequest) : List CatalogValue :=
  (h.catalogs.filter fun c => admits request.catalog c.name).map (CatalogObjects.value request)

/-- The names of the schemas of a catalog. -/
def schemaNames (catalog : String) : List String :=
  (h.catalogs.filter fun c => c.name = catalog).flatMap fun c => c.schemas.map SchemaObjects.name

/-- The schemas, each with the name of its catalog. -/
def schemas : List (String × SchemaObjects) :=
  h.catalogs.flatMap fun c => c.schemas.map fun s => (c.name, s)

/-- The names of the tables of a schema. -/
def tableNames (catalog schema : String) : List String :=
  (h.schemas.filter fun p => p.1 = catalog ∧ p.2.name = schema).flatMap fun p => p.2.tables

end Hierarchy

/-- The driver answers with every match, catalog by catalog, in batches that can be read. -/
def ReturnsMatches (getObjects : GetObjects) (h : Hierarchy) : Prop :=
  ∀ request, ∃ (stream : ObjectsStream request.depth) (batches : List MetadataBatch),
    getObjects request = .ok stream ∧ stream.batches = batches.map MetadataBatch.toArrow ∧
      (∀ b ∈ batches, b.SlotsRead request.depth ∧ b.NullsEmpty request.depth) ∧
      (batches.flatMap MetadataBatch.value).Perm (h.search request)

/-- The names are returned, each once, and no others. -/
def FetchesExactly (result : Except MetadataError (List String)) (names : List String) : Prop :=
  ∃ found, result = .ok found ∧ found.Nodup ∧ ∀ name, name ∈ found ↔ name ∈ names

/-! ## What is listed -/

section Listed
variable {α β : Type}

/-- Listing for more than what is meant adds nothing exactly if there is nothing to add. -/
theorem filter_flatMap_perm_iff {l : List α} {wanted found : α → Bool} (f : α → List β)
    (h : ∀ a, wanted a = true → found a = true) :
    ((l.filter found).flatMap f).Perm ((l.filter wanted).flatMap f) ↔
      ∀ a ∈ l, found a = true → wanted a = false → f a = [] := by
  have hwanted : (l.filter found).filter wanted = l.filter wanted := by
    rw [List.filter_filter]
    refine List.filter_congr fun a _ => ?_
    cases hw : wanted a with
    | false => simp
    | true => simp [h a hw]
  have hsplit := (List.filter_append_perm wanted (l.filter found)).flatMap_right f
  rw [hwanted, List.flatMap_append] at hsplit
  have hrest : ((l.filter found).flatMap f).Perm ((l.filter wanted).flatMap f) ↔
      ((l.filter found).filter fun a => !wanted a).flatMap f = [] := by
    constructor
    · intro hperm
      have hlength := (hsplit.trans hperm).length_eq
      rw [List.length_append] at hlength
      exact List.length_eq_zero_iff.mp (by omega)
    · intro hnil
      rw [hnil, List.append_nil] at hsplit
      exact hsplit.symm
  rw [hrest, List.flatMap_eq_nil_iff]
  simp only [List.mem_filter, Bool.not_eq_true', and_imp]

/-- At most one element has the name that is asked for. -/
theorem filter_name_cases [DecidableEq β] {l : List α} {nameOf : α → β}
    (h : (l.map nameOf).Nodup) (name : β) :
    l.filter (fun a => nameOf a = name) = [] ∨
      ∃ a ∈ l, nameOf a = name ∧ l.filter (fun a => nameOf a = name) = [a] := by
  induction l with
  | nil => exact .inl rfl
  | cons a l ih =>
    rw [List.map_cons, List.nodup_cons] at h
    by_cases ha : nameOf a = name
    · have hrest : l.filter (fun b => nameOf b = name) = [] := by
        rw [List.filter_eq_nil_iff]
        intro b hb
        have hne : nameOf b ≠ name := fun he =>
          h.1 (ha.trans he.symm ▸ List.mem_map_of_mem hb)
        simpa using hne
      refine .inr ⟨a, List.mem_cons_self, ha, ?_⟩
      rw [List.filter_cons_of_pos (by simpa using ha), hrest]
    · rw [List.filter_cons_of_neg (by simpa using ha)]
      rcases ih h.2 with hnil | ⟨b, hb, hname, hsingle⟩
      · exact .inl hnil
      · exact .inr ⟨b, List.mem_cons_of_mem a hb, hname, hsingle⟩

end Listed

namespace Hierarchy
variable (h : Hierarchy)

theorem schemaNames_nodup (catalog : String) : (h.schemaNames catalog).Nodup := by
  rw [schemaNames]
  rcases filter_name_cases h.catalogsDistinct catalog with hnil | ⟨c, hc, -, hsingle⟩
  · rw [hnil]
    exact List.nodup_nil
  · rw [hsingle, List.flatMap_singleton]
    exact h.schemasDistinct c hc

theorem tableNames_eq (catalog schema : String) :
    h.tableNames catalog schema =
      (h.catalogs.filter fun c => c.name = catalog).flatMap fun c =>
        (c.schemas.filter fun s => s.name = schema).flatMap SchemaObjects.tables := by
  rw [tableNames, schemas]
  induction h.catalogs with
  | nil => rfl
  | cons c catalogs ih =>
    rw [List.flatMap_cons, List.filter_append, List.flatMap_append, ih, List.filter_cons]
    by_cases hc : c.name = catalog
    · simp [hc, List.filter_map, List.flatMap_map, Function.comp_def]
    · simp [hc, List.filter_map, Function.comp_def]

theorem tableNames_nodup (catalog schema : String) : (h.tableNames catalog schema).Nodup := by
  rw [tableNames_eq]
  rcases filter_name_cases h.catalogsDistinct catalog with hnil | ⟨c, hc, -, hsingle⟩
  · rw [hnil]
    exact List.nodup_nil
  · rw [hsingle, List.flatMap_singleton]
    rcases filter_name_cases (h.schemasDistinct c hc) schema with hnil | ⟨s, hs, -, hsingle⟩
    · rw [hnil]
      exact List.nodup_nil
    · rw [hsingle, List.flatMap_singleton]
      exact h.tablesDistinct c hc s hs

/-- The schemas in the answer to a request for those of a catalog. -/
theorem schemaNamesIn_search (catalog : String) :
    schemaNamesIn (h.search ⟨.dbSchemas, some catalog, none⟩) =
      (h.catalogs.filter fun c => admits (some catalog) c.name).flatMap fun c =>
        c.schemas.map SchemaObjects.name := by
  rw [schemaNamesIn, search, List.flatMap_map]
  refine List.flatMap_congr fun c _ => ?_
  simp [CatalogObjects.value, SchemaObjects.value, admits, Function.comp_def]

/-- The tables in the answer to a request for those of a schema. -/
theorem tableNamesIn_search (catalog schema : String) :
    tableNamesIn (h.search ⟨.tables, some catalog, some schema⟩) =
      (h.schemas.filter fun p => admits (some catalog) p.1 && admits (some schema) p.2.name).flatMap
        fun p => p.2.tables := by
  rw [tableNamesIn, search, schemas]
  induction h.catalogs with
  | nil => rfl
  | cons c catalogs ih =>
    rw [List.flatMap_cons, List.filter_append, List.flatMap_append, ← ih, List.filter_cons]
    by_cases hc : admits (some catalog) c.name
    · simp [hc, CatalogObjects.value, SchemaObjects.value, List.filter_map, List.flatMap_map,
        Function.comp_def]
    · simp [hc, List.filter_map, Function.comp_def]

end Hierarchy

theorem namesIn_flatMap {α : Type} (depth : ObjectDepth) (l : List α) (f : α → List CatalogValue) :
    namesIn depth (l.flatMap f) = l.flatMap fun a => namesIn depth (f a) := by
  cases depth <;> exact List.flatMap_assoc

theorem namesIn_perm (depth : ObjectDepth) {l l' : List CatalogValue} (hperm : l.Perm l') :
    (namesIn depth l).Perm (namesIn depth l') := by
  cases depth <;> exact hperm.flatMap_right _

/-- The names in an answer are those of the matches. -/
theorem ReturnsMatches.names_perm {getObjects : GetObjects} {h : Hierarchy}
    (hdriver : ReturnsMatches getObjects h) (request : GetObjectsRequest) :
    ∃ names, namesInAnswer (getObjects request) = .ok names ∧
      names.Perm (namesIn request.depth (h.search request)) := by
  obtain ⟨stream, batches, hanswer, hbatches, hread, hvalue⟩ := hdriver request
  refine ⟨stream.names, by rw [hanswer]; rfl, ?_⟩
  have hnames : stream.names = namesIn request.depth (batches.flatMap MetadataBatch.value) := by
    rw [ObjectsStream.names, hbatches, List.flatMap_map, namesIn_flatMap]
    refine List.flatMap_congr fun b hb => ?_
    obtain ⟨hslots, hnulls⟩ := hread b hb
    have hdecodes : request.depth.namesOf b.toArrow = some (namesIn request.depth b.value) :=
      MetadataBatch.SlotsRead.decodes hslots hnulls
    rw [hdecodes, Option.getD_some]
  rw [hnames]
  exact namesIn_perm request.depth hvalue

theorem fetchesExactly_iff_perm {result : Except MetadataError (List String)}
    {found names : List String} (hresult : result = .ok found) (hnames : names.Nodup) :
    FetchesExactly result names ↔ found.Perm names := by
  constructor
  · rintro ⟨found', hresult', hnodup, hmem⟩
    obtain rfl := Except.ok.inj (hresult.symm.trans hresult')
    exact (List.perm_ext_iff_of_nodup hnodup hnames).mpr hmem
  · intro hperm
    exact ⟨found, hresult, hperm.nodup_iff.mpr hnames, fun name => hperm.mem_iff⟩

/-- **When the metadata is that of the requested object.**  The schemas are those of the
current catalog exactly if no other catalog with schemas matches its name as a pattern.
The tables are those of a schema in it exactly if no other schema with tables matches the
name, in a catalog that matches. -/
theorem metadata_scoped_iff {getObjects : GetObjects} {h : Hierarchy} {catalogName : String}
    (hdriver : ReturnsMatches getObjects h) (hreported : catalogName ≠ "") :
    (FetchesExactly (fetchSchemaNames getObjects catalogName) (h.schemaNames catalogName) ↔
      ∀ c ∈ h.catalogs, admits (some catalogName) c.name = true → c.name ≠ catalogName →
        c.schemas = []) ∧
    ∀ (noSchemas : Bool) (schemaName : String),
      let schema := getInternalSchemaName noSchemas schemaName
      FetchesExactly (fetchTableNames getObjects catalogName noSchemas schemaName)
          (h.tableNames catalogName schema) ↔
        ∀ p ∈ h.schemas, admits (some catalogName) p.1 = true →
          admits (some schema) p.2.name = true → ¬ (p.1 = catalogName ∧ p.2.name = schema) →
          p.2.tables = [] := by
  constructor
  · obtain ⟨names, hnames, hperm⟩ :=
      hdriver.names_perm ⟨.dbSchemas, some catalogName, none⟩
    have hfetch : fetchSchemaNames getObjects catalogName = .ok names := by
      rw [fetchSchemaNames_eq, catalogArgument, if_neg hreported, hnames]
    have hlisted := h.schemaNamesIn_search catalogName
    rw [fetchesExactly_iff_perm hfetch (h.schemaNames_nodup catalogName),
      (hperm.trans (.of_eq hlisted)).congr_left, Hierarchy.schemaNames,
      filter_flatMap_perm_iff _ fun c hc => by
        rw [decide_eq_true_eq] at hc
        rw [hc, admits_self]]
    simp only [decide_eq_false_iff_not, List.map_eq_nil_iff, ne_eq]
  · intro noSchemas schemaName schema
    obtain ⟨names, hnames, hperm⟩ :=
      hdriver.names_perm ⟨.tables, some catalogName, some schema⟩
    have hfetch : fetchTableNames getObjects catalogName noSchemas schemaName = .ok names := by
      rw [fetchTableNames_eq, catalogArgument, if_neg hreported, hnames]
    have hlisted := h.tableNamesIn_search catalogName schema
    rw [fetchesExactly_iff_perm hfetch (h.tableNames_nodup catalogName schema),
      (hperm.trans (.of_eq hlisted)).congr_left, Hierarchy.tableNames,
      filter_flatMap_perm_iff _ fun p hp => by
        rw [decide_eq_true_eq] at hp
        rw [hp.1, hp.2, admits_self, admits_self, Bool.and_self]]
    simp only [decide_eq_false_iff_not, Bool.and_eq_true, and_imp]

/-! ## A driver -/

/-- A driver that answers with one batch. -/
def searchDriver (h : Hierarchy) : GetObjects := fun request =>
  .ok
    { batches := [(MetadataBatch.ofCatalogs (h.search request)).toArrow]
      ending := .endOfStream
      laidOut := fun batch hbatch => by
        obtain rfl := List.mem_singleton.mp hbatch
        rw [show request.depth.namesOf _ = some _ from
          MetadataBatch.decodes_ofCatalogs (h.search request) request.depth]
        rfl }

theorem searchDriver_returnsMatches (h : Hierarchy) : ReturnsMatches (searchDriver h) h := by
  intro request
  refine ⟨_, [.ofCatalogs (h.search request)], rfl, rfl, ?_, ?_⟩
  · intro b hb
    obtain rfl := List.mem_singleton.mp hb
    exact ⟨(MetadataBatch.unsliced_ofCatalogs _).slotsRead _,
      MetadataBatch.nullsEmpty_ofCatalogs _ _⟩
  · rw [List.flatMap_singleton, MetadataBatch.value_ofCatalogs]

/-- Two catalogs, of which the second has tables of its own. -/
def twoCatalogs : Hierarchy where
  catalogs := [⟨"db", [⟨"main", ["t", "u"]⟩, ⟨"tmp", []⟩]⟩, ⟨"dbx", [⟨"main", ["v"]⟩]⟩]
  catalogsDistinct := by decide
  schemasDistinct := by decide
  tablesDistinct := by decide

/-- Beside a catalog `dbx`, the schemas and the tables of `db` are those of `db` alone. -/
theorem twoCatalogs_scoped :
    FetchesExactly (fetchSchemaNames (searchDriver twoCatalogs) "db") ["main", "tmp"] ∧
      FetchesExactly (fetchTableNames (searchDriver twoCatalogs) "db" false "main") ["t", "u"] := by
  have hscoped := @metadata_scoped_iff (searchDriver twoCatalogs) twoCatalogs "db"
    (searchDriver_returnsMatches twoCatalogs) (by decide)
  exact ⟨hscoped.1.mpr (by decide), (hscoped.2 false "main").mpr (by decide)⟩

/-- A schema with an underscore in its name, and one that matches the name. -/
def underscoreName : Hierarchy where
  catalogs := [⟨"db", [⟨"my_schema", ["a"]⟩, ⟨"myXschema", ["b"]⟩]⟩]
  catalogsDistinct := by decide
  schemasDistinct := by decide
  tablesDistinct := by decide

/-- A schema `my_schema` beside one that its name matches as a pattern: the tables of the other
schema are listed with its own. -/
theorem underscoreName_not_scoped :
    ReturnsMatches (searchDriver underscoreName) underscoreName ∧
      underscoreName.tableNames "db" "my_schema" = ["a"] ∧
      fetchTableNames (searchDriver underscoreName) "db" false "my_schema" = .ok ["a", "b"] ∧
      ¬ FetchesExactly (fetchTableNames (searchDriver underscoreName) "db" false "my_schema")
        (underscoreName.tableNames "db" "my_schema") := by
  have hfetch : fetchTableNames (searchDriver underscoreName) "db" false "my_schema" =
      .ok ["a", "b"] := rfl
  refine ⟨searchDriver_returnsMatches _, by decide, hfetch, ?_⟩
  rintro ⟨found, hfound, -, hmem⟩
  obtain rfl := Except.ok.inj (hfetch.symm.trans hfound)
  exact absurd ((hmem "b").mp (by decide)) (by decide)

end AdbcClient
