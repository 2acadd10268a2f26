import Mathlib.Data.List.Dedup
import Mathlib.Data.List.Perm.Subperm
import Mathlib.Data.Option.Basic
import AdbcClient.SchemaLookup

/-!
# Enumerating schemas

`ScanSchemas` runs over the list of names and calls back an entry for each, which it
creates if the map has none yet (`adbc_catalog.cpp`).  The list is what the driver has
reported: a name of several catalogs is in it several times, and names that differ only
in case share an entry of the map.  `schemas_scanned_iff` says when each entry is called
back once.
-/
namespace AdbcClient.AdbcCatalog
open Runs

/-- The entries of schemas in the map of the catalog, in the order of the map. -/
def schemas (c : AdbcCatalog) : List AdbcSchemaEntry := c.ownedSchemas.entries.map Sigma.snd

/-- Where the entry of a listed schema is in the map. -/
def schemaKey (noSchemas : Bool) (schemaName : String) : List Char :=
  lower (getInternalSchemaName noSchemas schemaName)

/-- **The schemas are enumerated**, by a catalog that lists these names. -/
structure Enumerates (getObjects : GetObjects) (names : List String) (c : AdbcCatalog) : Prop where
  /-- Each entry in the map is called back once, and no other. -/
  once : ∃ called, (c.scanSchemas getObjects).1 = .ok called ∧
    called.Perm (c.scanSchemas getObjects).2.schemas
  /-- There is one entry for each name. -/
  entries : ((c.scanSchemas getObjects).2.schemas.map (schemaOf c.noSchemas)).Perm
    (names.dedup.map (getInternalSchemaName c.noSchemas))
  /-- Every listed schema is found by `LookupSchema` under its name, after the scan. -/
  found : ∀ s ∈ names, ∀ ifNotFound, ∃ entry,
    ((c.scanSchemas getObjects).2.lookupSchema getObjects s ifNotFound).1 = .ok (some entry)

/-! ## What a scan leaves -/

section Scan
variable {c : AdbcCatalog} {names : List String}

@[simp] theorem createCatalogEntry_noSchemas (c : AdbcCatalog) (schemaName : String) :
    (c.createCatalogEntry schemaName).2.noSchemas = c.noSchemas := by
  unfold createCatalogEntry
  simp only
  split <;> rfl

/-- Created is found, and what was there stays. -/
theorem lookup_createCatalogEntry (c : AdbcCatalog) (s : String) :
    (c.createCatalogEntry (getInternalSchemaName c.noSchemas s)).2.ownedSchemas.lookup
        (schemaKey c.noSchemas s) =
      some (c.createCatalogEntry (getInternalSchemaName c.noSchemas s)).1 ∧
    ∀ k, k ≠ schemaKey c.noSchemas s ∨ (c.ownedSchemas.lookup k).isSome →
      (c.createCatalogEntry (getInternalSchemaName c.noSchemas s)).2.ownedSchemas.lookup k =
        c.ownedSchemas.lookup k := by
  rcases createCatalogEntry_cases (getInternalSchemaName_idem c.noSchemas s) with
    ⟨e, hl, he⟩ | ⟨hl, he⟩
  · rw [he]
    exact ⟨hl, fun _ _ => rfl⟩
  · rw [he]
    refine ⟨AList.lookup_insert _, fun k hk => AList.lookup_insert_ne ?_⟩
    rintro rfl
    rcases hk with hne | hsome
    · exact hne rfl
    · rw [hl] at hsome
      cases hsome

/-- What is in the map stays there. -/
theorem lookup_scanNames {k : List Char} {e : AdbcSchemaEntry}
    (h : c.ownedSchemas.lookup k = some e) :
    (c.scanNames names).2.ownedSchemas.lookup k = some e := by
  induction names generalizing c with
  | nil => exact h
  | cons s names ih =>
    rw [scanNames_cons]
    refine ih ?_
    rw [(lookup_createCatalogEntry c s).2 k (.inr (by rw [h]; rfl)), h]

/-- **What is called back**: for each name in the list, the entry that is in the map
afterwards. -/
theorem called_scanNames (c : AdbcCatalog) (names : List String) :
    (c.scanNames names).1.map some = names.map fun s =>
      (c.scanNames names).2.ownedSchemas.lookup (schemaKey c.noSchemas s) := by
  induction names generalizing c with
  | nil => rfl
  | cons s names ih =>
    obtain ⟨hcreated, -⟩ := lookup_createCatalogEntry c s
    rw [scanNames_cons, List.map_cons, List.map_cons, ih, createCatalogEntry_noSchemas,
      lookup_scanNames hcreated]

/-- **The keys afterwards** are those from before and those of the names. -/
theorem isSome_scanNames_iff (k : List Char) :
    ((c.scanNames names).2.ownedSchemas.lookup k).isSome ↔
      (c.ownedSchemas.lookup k).isSome ∨ k ∈ names.map (schemaKey c.noSchemas) := by
  constructor
  · induction names generalizing c with
    | nil => exact .inl
    | cons s names ih =>
      rw [scanNames_cons]
      intro hk
      rcases ih hk with hk | hk
      · by_cases hkey : k = schemaKey c.noSchemas s
        · exact .inr (by simp [hkey])
        · rw [(lookup_createCatalogEntry c s).2 k (.inl hkey)] at hk
          exact .inl hk
      · rw [createCatalogEntry_noSchemas] at hk
        exact .inr (by simpa using .inr (by simpa using hk))
  · intro h
    refine isSome_scanNames (h.imp_right fun hk => ?_)
    exact List.mem_map.mp hk

/-- The entries of the map are what a lookup of each of its keys finds. -/
theorem schemas_map_some (c : AdbcCatalog) :
    c.schemas.map some = c.ownedSchemas.keys.map c.ownedSchemas.lookup := by
  rw [schemas, AList.keys, List.keys, List.map_map, List.map_map]
  refine List.map_congr_left fun x hx => ?_
  exact (AList.mem_lookup_iff.mpr hx).symm

/-- **Called back once each** are the entries exactly if no two names share a key. -/
theorem called_perm_iff (hkeys : ∀ k, (c.ownedSchemas.lookup k).isSome →
    k ∈ names.map (schemaKey c.noSchemas)) :
    (c.scanNames names).1.Perm (c.scanNames names).2.schemas ↔
      (names.map (schemaKey c.noSchemas)).Nodup := by
  have hmem : ∀ k, k ∈ (c.scanNames names).2.ownedSchemas.keys ↔
      k ∈ names.map (schemaKey c.noSchemas) := by
    intro k
    rw [← AList.mem_keys, ← AList.lookup_isSome, isSome_scanNames_iff]
    exact ⟨fun h => h.elim (hkeys k) id, .inr⟩
  have hnodup := (c.scanNames names).2.ownedSchemas.keys_nodup
  rw [← List.map_perm_map_iff (Option.some_injective AdbcSchemaEntry), called_scanNames,
    schemas_map_some]
  constructor
  · intro hperm
    have hlength := hperm.length_eq
    rw [List.length_map, List.length_map] at hlength
    have hsub := List.subperm_of_subset hnodup fun k hk => (hmem k).mp hk
    exact (hsub.perm_of_length_le (by rw [List.length_map]; omega)).nodup_iff.mp hnodup
  · intro hdistinct
    have hperm := (List.perm_ext_iff_of_nodup hdistinct hnodup).mpr fun k => (hmem k).symm
    have hmap := hperm.map (c.scanNames names).2.ownedSchemas.lookup
    rwa [List.map_map] at hmap

end Scan

section Enumeration
variable {getObjects : GetObjects} {c : AdbcCatalog} {noSchemas : Bool} {names : List String}

theorem Lists.scanSchemas_eq (h : Lists getObjects noSchemas names c) :
    c.scanSchemas getObjects =
      (.ok ((c.withNames names).scanNames names).1, ((c.withNames names).scanNames names).2) := by
  simp only [scanSchemas, h.getCachedSchemaNames_eq]

/-- After the loop there is an entry for each listed schema, which stands for one that has
its key. -/
theorem Lists.scanned (h : Lists getObjects noSchemas names c) {s : String} (hs : s ∈ names) :
    ∃ e, ((c.withNames names).scanNames names).2.ownedSchemas.lookup (schemaKey noSchemas s) =
        some e ∧
      ∃ s' ∈ names, schemaKey noSchemas s = schemaKey noSchemas s' ∧
        schemaOf noSchemas e = getInternalSchemaName noSchemas s' := by
  have hafter : Lists getObjects noSchemas names ((c.withNames names).scanNames names).2 :=
    h.withNames.scanNames fun _ hs => hs
  have hsome : (((c.withNames names).scanNames names).2.ownedSchemas.lookup
      (schemaKey noSchemas s)).isSome :=
    isSome_scanNames (.inr ⟨s, hs, by rw [h.withNames.flag]; rfl⟩)
  obtain ⟨e, he⟩ := Option.isSome_iff_exists.mp hsome
  exact ⟨e, he, hafter.entries _ e he⟩

/-- If no two names share a key, the entry called back for a name stands for it. -/
theorem Lists.called_stand_for (h : Lists getObjects noSchemas names c)
    (hdistinct : (names.map (schemaKey noSchemas)).Nodup) :
    ((c.withNames names).scanNames names).1.map (schemaOf noSchemas) =
      names.map (getInternalSchemaName noSchemas) := by
  have hcalled := called_scanNames (c.withNames names) names
  rw [h.withNames.flag] at hcalled
  have hstands : ∀ s ∈ names, (((c.withNames names).scanNames names).2.ownedSchemas.lookup
      (schemaKey noSchemas s)).map (schemaOf noSchemas) =
        some (getInternalSchemaName noSchemas s) := by
    intro s hs
    obtain ⟨e, he, s', hs', hkey, hschema⟩ := h.scanned hs
    obtain rfl := List.inj_on_of_nodup_map hdistinct hs hs' hkey
    rw [he, Option.map_some, hschema]
  apply List.map_injective_iff.mpr (Option.some_injective String)
  calc ((((c.withNames names).scanNames names).1.map (schemaOf noSchemas)).map some)
      = (((c.withNames names).scanNames names).1.map some).map (Option.map (schemaOf noSchemas)) := by
        rw [List.map_map, List.map_map]
        rfl
    _ = (names.map (getInternalSchemaName noSchemas)).map some := by
        rw [hcalled, List.map_map, List.map_map]
        exact List.map_congr_left hstands

/-- A listed schema is found after a scan. -/
theorem Lists.found (h : Lists getObjects noSchemas names c) {s : String} (hs : s ∈ names)
    (ifNotFound : OnEntryNotFound) : ∃ entry,
      ((c.scanSchemas getObjects).2.lookupSchema getObjects s ifNotFound).1 =
        .ok (some entry) := by
  have hafter : Lists getObjects noSchemas names ((c.withNames names).scanNames names).2 :=
    h.withNames.scanNames fun _ hs => hs
  obtain ⟨e, he, -⟩ := h.scanned hs
  rw [h.scanSchemas_eq]
  rcases lookupSchema_cases getObjects ((c.withNames names).scanNames names).2 s ifNotFound rfl with
    ⟨e', -, hlookup⟩ | ⟨hl, -⟩ | ⟨hl, -⟩ | ⟨hl, -⟩
  · exact ⟨e', by rw [hlookup]⟩
  all_goals
    rw [hafter.flag] at hl
    cases he.symm.trans hl

/-- **When the schemas are enumerated.**  After any earlier calls, a scan calls back every listed
schema once if and only if no two names in the list are one internal name up to case.  Either way,
each listed name is found afterwards. -/
theorem schemas_scanned_iff (getObjects : GetObjects) {c : AdbcCatalog} {names : List String}
    (hempty : c.ownedSchemas = ∅) (hlisted : (c.getCachedSchemaNames getObjects).1 = .ok names)
    (earlier : List SchemaCall) :
    (Enumerates getObjects names (run (call getObjects) c earlier) ↔
      (names.map (schemaKey c.noSchemas)).Nodup) ∧
    ∀ s ∈ names, ∀ ifNotFound, ∃ entry,
      (((run (call getObjects) c earlier).scanSchemas getObjects).2.lookupSchema getObjects s
        ifNotFound).1 = .ok (some entry) := by
  have h := (Lists.of_empty hempty hlisted).run earlier
  have hkeys : ∀ k, (((run (call getObjects) c earlier).withNames names).ownedSchemas.lookup
      k).isSome → k ∈ names.map
        (schemaKey ((run (call getObjects) c earlier).withNames names).noSchemas) := by
    intro k hk
    obtain ⟨e, he⟩ := Option.isSome_iff_exists.mp hk
    obtain ⟨s, hs, hkey, -⟩ := h.entries k e he
    rw [h.withNames.flag]
    exact List.mem_map.mpr ⟨s, hs, hkey.symm⟩
  have hperm := called_perm_iff hkeys
  rw [h.withNames.flag] at hperm
  refine ⟨⟨fun hscan => ?_, fun hdistinct => ⟨?_, ?_, fun s hs => h.found hs⟩⟩,
    fun s hs => h.found hs⟩
  · obtain ⟨called, hcalled, honce⟩ := hscan.once
    rw [h.scanSchemas_eq] at hcalled honce
    obtain rfl := Except.ok.inj hcalled
    exact hperm.mp honce
  · rw [h.scanSchemas_eq]
    exact ⟨_, rfl, hperm.mpr hdistinct⟩
  · have hnames : names.Nodup := hdistinct.of_map
    rw [h.scanSchemas_eq, h.flag, hnames.dedup, ← h.called_stand_for hdistinct]
    exact ((hperm.mpr hdistinct).map _).symm

/-- Distinct names, of which one has been looked up before. -/
theorem distinct_schemas_scanned :
    Enumerates (answering ⟨[], .endOfStream, by decide⟩ ⟨[], .endOfStream, by decide⟩)
      ["main", "sales"]
      (run (call (answering ⟨[], .endOfStream, by decide⟩ ⟨[], .endOfStream, by decide⟩))
        ⟨"", false, ∅, ["main", "sales"], true⟩ [.lookupSchema "sales" .returnNull]) :=
  ((schemas_scanned_iff _ rfl rfl _).1).mpr (by decide)

/-- The `main` schemas of two catalogs: their one entry is called back twice. -/
theorem repeated_schema_not_enumerated :
    ((⟨"", false, ∅, ["main", "main"], true⟩ : AdbcCatalog).scanSchemas
        (answering ⟨[], .endOfStream, by decide⟩ ⟨[], .endOfStream, by decide⟩)).1.map
          (fun called => called.map AdbcSchemaEntry.name) = .ok ["main", "main"] ∧
      ¬ Enumerates (answering ⟨[], .endOfStream, by decide⟩ ⟨[], .endOfStream, by decide⟩)
        ["main", "main"] ⟨"", false, ∅, ["main", "main"], true⟩ := by
  refine ⟨by decide, fun h => ?_⟩
  obtain ⟨called, hcalled, hperm⟩ := h.once
  have hlength := hperm.length_eq
  obtain rfl := Except.ok.inj hcalled
  revert hlength
  decide

end Enumeration

end AdbcClient.AdbcCatalog
