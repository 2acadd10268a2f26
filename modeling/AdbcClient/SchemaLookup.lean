import AdbcClient.Catalog
import AdbcClient.Runs

/-!
# Looking up schemas

`LookupSchema` answers from the entries created so far, in a map that compares names
without regard to case, and otherwise searches the list of names for the exact
spelling; `ScanSchemas` creates an entry for every listed name (`adbc_catalog.cpp`).
So an earlier statement can have created the entry that decides whether a spelling is
found, or which schema it stands for.

`Lists` is what holds of the entries after any sequence of the two: each stands for
the internal name of a listed schema.  `historyFree_iff` says for which spellings the
answer is the same after all of them.
-/
namespace AdbcClient
open Runs

/-- `OnEntryNotFound`. -/
inductive OnEntryNotFound where
  | throwException
  | returnNull
  deriving DecidableEq, Repr

/-- What `LookupSchema` can throw: for a fetch that has failed, or for a schema that does not
exist. -/
inductive LookupError where
  | metadata (error : MetadataError)
  | io (message : String)
  deriving DecidableEq, Repr

namespace AdbcCatalog

/-- The loop of `ScanSchemas`: what it calls back. -/
def scanNames : AdbcCatalog → List String → List AdbcSchemaEntry × AdbcCatalog
  | c, [] => ([], c)
  | c, schemaName :: names =>
    let internalSchema := getInternalSchemaName c.noSchemas schemaName
    let (entry, c) :=
      match c.getCatalogEntry internalSchema with
      | some entry => (entry, c)
      | none => c.createCatalogEntry internalSchema
    let (entries, c) := c.scanNames names
    (entry :: entries, c)

/-- `ScanSchemas`. -/
def scanSchemas (getObjects : GetObjects) (c : AdbcCatalog) :
    Except MetadataError (List AdbcSchemaEntry) × AdbcCatalog :=
  match c.getCachedSchemaNames getObjects with
  | (.error e, c) => (.error e, c)
  | (.ok names, c) =>
    let (entries, c) := c.scanNames names
    (.ok entries, c)

/-- What `LookupSchema` does if the schema does not exist. -/
def notFound (schemaName : String) :
    OnEntryNotFound → Except LookupError (Option AdbcSchemaEntry)
  | .returnNull => .ok none
  | .throwException =>
    .error (.io ("Unable to find schema with name: \"" ++ schemaName ++ "\""))

/-- `LookupSchema`. -/
def lookupSchema (getObjects : GetObjects) (c : AdbcCatalog) (schemaName : String)
    (ifNotFound : OnEntryNotFound) : Except LookupError (Option AdbcSchemaEntry) × AdbcCatalog :=
  let internalName := getInternalSchemaName c.noSchemas schemaName
  match c.getCatalogEntry internalName with
  | some entry => (.ok (some entry), c)
  | none =>
    match c.getCachedSchemaNames getObjects with
    | (.error e, c) => (.error (.metadata e), c)
    | (.ok names, c) =>
      if internalName ∈ names then
        let (entry, c) := c.createCatalogEntry internalName
        (.ok (some entry), c)
      else (notFound schemaName ifNotFound, c)

/-! ## Internal and external names -/

/-- The name under which an entry asks the remote. -/
def schemaOf (noSchemas : Bool) (entry : AdbcSchemaEntry) : String :=
  getInternalSchemaName noSchemas entry.name

end AdbcCatalog

@[simp] theorem getInternalSchemaName_idem (noSchemas : Bool) (schema : String) :
    getInternalSchemaName noSchemas (getInternalSchemaName noSchemas schema) =
      getInternalSchemaName noSchemas schema := by
  unfold getInternalSchemaName
  split
  · simp
  · rfl

/-- The external name of an internal one stands for it. -/
@[simp] theorem getInternalSchemaName_external (noSchemas : Bool) (schema : String) :
    getInternalSchemaName noSchemas
        (getExternalSchemaName noSchemas (getInternalSchemaName noSchemas schema)) =
      getInternalSchemaName noSchemas schema := by
  cases noSchemas with
  | false => rfl
  | true =>
    by_cases hmain : schema = "main"
    · rw [hmain]
      decide
    · by_cases hempty : schema = ""
      · rw [hempty]
        decide
      · simp [getInternalSchemaName, getExternalSchemaName, hmain, hempty]

namespace AdbcCatalog

/-! ## What the operations do -/

/-- The catalog with these names of schemas loaded. -/
def withNames (c : AdbcCatalog) (names : List String) : AdbcCatalog :=
  { c with cachedSchemaNames := names, schemaNamesLoaded := true }

/-- With a new entry for an internal name. -/
def withEntry (c : AdbcCatalog) (internalName : String) : AdbcCatalog :=
  { c with
    ownedSchemas := c.ownedSchemas.insert (lower internalName)
      (.new (getExternalSchemaName c.noSchemas internalName)) }

theorem getCatalogEntry_internal (c : AdbcCatalog) (schemaName : String) :
    c.getCatalogEntry (getInternalSchemaName c.noSchemas schemaName) =
      c.ownedSchemas.lookup (lower (getInternalSchemaName c.noSchemas schemaName)) := by
  rw [getCatalogEntry, getInternalSchemaName_idem]

/-- **What `CreateCatalogEntry` can do**: return the entry that is there, or a new one. -/
theorem createCatalogEntry_cases {c : AdbcCatalog} {internalName : String}
    (hinternal : getInternalSchemaName c.noSchemas internalName = internalName) :
    (∃ e, c.ownedSchemas.lookup (lower internalName) = some e ∧
      c.createCatalogEntry internalName = (e, c)) ∨
    (c.ownedSchemas.lookup (lower internalName) = none ∧
      c.createCatalogEntry internalName =
        (.new (getExternalSchemaName c.noSchemas internalName), c.withEntry internalName)) := by
  unfold createCatalogEntry
  rw [hinternal]
  cases hl : c.ownedSchemas.lookup (lower internalName) with
  | some e => exact .inl ⟨e, rfl, by simp only [hl]⟩
  | none => exact .inr ⟨rfl, by simp only [hl, withEntry]⟩

/-- `ScanSchemas` looks for an entry, and `CreateCatalogEntry` does so again. -/
theorem scanNames_cons (c : AdbcCatalog) (schemaName : String) (names : List String) :
    c.scanNames (schemaName :: names) =
      let created := c.createCatalogEntry (getInternalSchemaName c.noSchemas schemaName)
      (created.1 :: (created.2.scanNames names).1, (created.2.scanNames names).2) := by
  rw [scanNames, getCatalogEntry_internal]
  rcases createCatalogEntry_cases (getInternalSchemaName_idem c.noSchemas schemaName) with
    ⟨e, hl, he⟩ | ⟨hl, he⟩
  · simp only [hl, he]
  · simp only [hl]

/-- **What `GetCachedSchemaNames` can do**: fail, or load the names. -/
theorem getCachedSchemaNames_cases (getObjects : GetObjects) (c : AdbcCatalog) :
    (∃ e, c.getCachedSchemaNames getObjects = (.error e, c)) ∨
    (∃ names, c.getCachedSchemaNames getObjects = (.ok names, c.withNames names)) := by
  unfold getCachedSchemaNames
  cases hloaded : c.schemaNamesLoaded with
  | true =>
    refine .inr ⟨c.cachedSchemaNames, ?_⟩
    obtain ⟨_, _, _, _, _⟩ := c
    obtain rfl := hloaded
    rfl
  | false =>
    cases hfetch : fetchSchemaNames getObjects c.catalogName with
    | error e => exact .inl ⟨e, rfl⟩
    | ok names => exact .inr ⟨names, rfl⟩

/-- The entries do not matter for the names. -/
theorem getCachedSchemaNames_owned (getObjects : GetObjects) (c : AdbcCatalog)
    (entries : AList (fun _ : List Char => AdbcSchemaEntry)) :
    ({ c with ownedSchemas := entries }.getCachedSchemaNames getObjects).1 =
      (c.getCachedSchemaNames getObjects).1 := by
  unfold getCachedSchemaNames
  cases hloaded : c.schemaNamesLoaded with
  | true => rfl
  | false => cases hfetch : fetchSchemaNames getObjects c.catalogName <;> rfl

/-- **What `LookupSchema` can do**: answer from the map, fail to get the names, create the
entry of a listed schema, or find nothing. -/
theorem lookupSchema_cases (getObjects : GetObjects) (c : AdbcCatalog) (schemaName : String)
    (ifNotFound : OnEntryNotFound) {internalName : String}
    (hinternal : getInternalSchemaName c.noSchemas schemaName = internalName) :
    (∃ e, c.ownedSchemas.lookup (lower internalName) = some e ∧
      c.lookupSchema getObjects schemaName ifNotFound = (.ok (some e), c)) ∨
    (c.ownedSchemas.lookup (lower internalName) = none ∧
      ∃ e, (c.getCachedSchemaNames getObjects).1 = .error e ∧
        c.lookupSchema getObjects schemaName ifNotFound = (.error (.metadata e), c)) ∨
    (c.ownedSchemas.lookup (lower internalName) = none ∧
      ∃ names, (c.getCachedSchemaNames getObjects).1 = .ok names ∧ internalName ∈ names ∧
        c.lookupSchema getObjects schemaName ifNotFound =
          (.ok (some (.new (getExternalSchemaName c.noSchemas internalName))),
            (c.withNames names).withEntry internalName)) ∨
    (c.ownedSchemas.lookup (lower internalName) = none ∧
      ∃ names, (c.getCachedSchemaNames getObjects).1 = .ok names ∧ internalName ∉ names ∧
        c.lookupSchema getObjects schemaName ifNotFound =
          (notFound schemaName ifNotFound, c.withNames names)) := by
  have hget := c.getCatalogEntry_internal schemaName
  have hidem := getInternalSchemaName_idem c.noSchemas schemaName
  rw [hinternal] at hget hidem
  unfold lookupSchema
  simp only [hinternal, hget]
  cases hl : c.ownedSchemas.lookup (lower internalName) with
  | some e => exact .inl ⟨e, rfl, rfl⟩
  | none =>
    rcases c.getCachedSchemaNames_cases getObjects with ⟨e, he⟩ | ⟨names, he⟩
    · exact .inr (.inl ⟨rfl, e, by rw [he], by simp only [he]⟩)
    · by_cases hfound : internalName ∈ names
      · rcases createCatalogEntry_cases (c := c.withNames names) hidem with
          ⟨e, hsome, _⟩ | ⟨_, hcreate⟩
        · cases hl.symm.trans hsome
        · refine .inr (.inr (.inl ⟨rfl, names, by rw [he], hfound, ?_⟩))
          simp only [he, if_pos hfound, hcreate]
          rfl
      · refine .inr (.inr (.inr ⟨rfl, names, by rw [he], hfound, ?_⟩))
        simp only [he, if_neg hfound]

end AdbcCatalog

/-! ## Earlier calls -/

/-- An earlier call on the catalog, of those that may change its map or its names. -/
inductive SchemaCall where
  | lookupSchema (schemaName : String) (ifNotFound : OnEntryNotFound)
  | scanSchemas
  deriving DecidableEq, Repr

namespace AdbcCatalog
variable (getObjects : GetObjects)

/-- The catalog after such a call, of which the answer is not kept. -/
def call (c : AdbcCatalog) : SchemaCall → AdbcCatalog
  | .lookupSchema schemaName ifNotFound => (c.lookupSchema getObjects schemaName ifNotFound).2
  | .scanSchemas => (c.scanSchemas getObjects).2

/-- The answer to `LookupSchema`: the remote schema that the entry stands for, nothing, or
an exception. -/
def answer (c : AdbcCatalog) (schemaName : String) (ifNotFound : OnEntryNotFound) :
    Except LookupError (Option String) :=
  (c.lookupSchema getObjects schemaName ifNotFound).1.map (Option.map (schemaOf c.noSchemas))

/-- The answer of a catalog that has no entry yet. -/
def listedAnswer (noSchemas : Bool) (names : List String) (schemaName : String)
    (ifNotFound : OnEntryNotFound) : Except LookupError (Option String) :=
  if getInternalSchemaName noSchemas schemaName ∈ names then
    .ok (some (getInternalSchemaName noSchemas schemaName))
  else (notFound schemaName ifNotFound).map (Option.map (schemaOf noSchemas))

/-- **The answer does not depend on the earlier calls.** -/
def HistoryFree (c : AdbcCatalog) (schemaName : String) : Prop :=
  ∀ earlier earlier' ifNotFound,
    (run (call getObjects) c earlier).answer getObjects schemaName ifNotFound =
      (run (call getObjects) c earlier').answer getObjects schemaName ifNotFound

/-- **The entries of a catalog that lists these names**: each stands for the internal name
of one of them, and is filed under it. -/
structure Lists (noSchemas : Bool) (names : List String) (c : AdbcCatalog) : Prop where
  flag : c.noSchemas = noSchemas
  listed : (c.getCachedSchemaNames getObjects).1 = .ok names
  entries : ∀ k e, c.ownedSchemas.lookup k = some e → ∃ s ∈ names,
    k = lower (getInternalSchemaName noSchemas s) ∧
      schemaOf noSchemas e = getInternalSchemaName noSchemas s

namespace Lists
variable {getObjects} {noSchemas : Bool} {names : List String} {c : AdbcCatalog}

theorem withNames (h : Lists getObjects noSchemas names c) :
    Lists getObjects noSchemas names (c.withNames names) where
  flag := h.flag
  listed := rfl
  entries := h.entries

theorem getCachedSchemaNames_eq (h : Lists getObjects noSchemas names c) :
    c.getCachedSchemaNames getObjects = (.ok names, c.withNames names) := by
  have hlisted := h.listed
  rcases c.getCachedSchemaNames_cases getObjects with ⟨e, he⟩ | ⟨names', he⟩
  · rw [he] at hlisted
    cases hlisted
  · rw [he] at hlisted ⊢
    cases hlisted
    rfl

/-- An entry may be created for a listed name. -/
theorem withEntry (h : Lists getObjects noSchemas names c) {s : String} (hs : s ∈ names) :
    Lists getObjects noSchemas names (c.withEntry (getInternalSchemaName noSchemas s)) where
  flag := h.flag
  listed := (getCachedSchemaNames_owned getObjects c _).trans h.listed
  entries k e hk := by
    by_cases hkey : k = lower (getInternalSchemaName noSchemas s)
    · subst hkey
      obtain rfl := Option.some.inj (hk.symm.trans (AList.lookup_insert _))
      refine ⟨s, hs, rfl, ?_⟩
      rw [schemaOf, AdbcSchemaEntry.new, h.flag, getInternalSchemaName_external]
    · exact h.entries k e ((AList.lookup_insert_ne hkey).symm.trans hk)

theorem createCatalogEntry (h : Lists getObjects noSchemas names c) {s : String}
    (hs : s ∈ names) : Lists getObjects noSchemas names
      (c.createCatalogEntry (getInternalSchemaName noSchemas s)).2 := by
  have hidem : getInternalSchemaName c.noSchemas (getInternalSchemaName noSchemas s) =
      getInternalSchemaName noSchemas s := by rw [h.flag, getInternalSchemaName_idem]
  rcases createCatalogEntry_cases hidem with ⟨e, _, he⟩ | ⟨_, he⟩
  · rw [he]
    exact h
  · rw [he]
    exact h.withEntry hs

theorem scanNames (h : Lists getObjects noSchemas names c) {scanned : List String}
    (hsub : ∀ s ∈ scanned, s ∈ names) :
    Lists getObjects noSchemas names (c.scanNames scanned).2 := by
  induction scanned generalizing c with
  | nil => exact h
  | cons s scanned ih =>
    rw [scanNames_cons, h.flag]
    exact ih (h.createCatalogEntry (hsub s List.mem_cons_self))
      (fun t ht => hsub t (List.mem_cons_of_mem s ht))

/-- **Every call keeps it.** -/
theorem call (h : Lists getObjects noSchemas names c) (a : SchemaCall) :
    Lists getObjects noSchemas names (c.call getObjects a) := by
  cases a with
  | scanSchemas =>
    simp only [AdbcCatalog.call, scanSchemas, h.getCachedSchemaNames_eq]
    exact h.withNames.scanNames (fun _ hs => hs)
  | lookupSchema schemaName ifNotFound =>
    rw [AdbcCatalog.call]
    rcases c.lookupSchema_cases getObjects schemaName ifNotFound rfl with
      ⟨_, _, he⟩ | ⟨_, e, herror, _⟩ | ⟨_, found, hfound, hmem, he⟩ | ⟨_, found, hfound, _, he⟩
    · rw [he]
      exact h
    · cases h.listed.symm.trans herror
    · cases h.listed.symm.trans hfound
      rw [he]
      have hentry := h.withNames.withEntry hmem
      rw [h.flag, getInternalSchemaName_idem] at hentry
      rw [h.flag]
      exact hentry
    · cases h.listed.symm.trans hfound
      rw [he]
      exact h.withNames

theorem run (h : Lists getObjects noSchemas names c) (calls : List SchemaCall) :
    Lists getObjects noSchemas names (Runs.run (AdbcCatalog.call getObjects) c calls) :=
  run_invariant _ (fun _ a _ hc => hc.call a) h

/-- A catalog without entries answers from the names that it loads. -/
theorem of_empty (hempty : c.ownedSchemas = ∅)
    (hlisted : (c.getCachedSchemaNames getObjects).1 = .ok names) :
    Lists getObjects c.noSchemas names c where
  flag := rfl
  listed := hlisted
  entries k e hk := by
    rw [hempty, AList.lookup_empty] at hk
    cases hk

/-- The answer from the map, if there is an entry for the key of the name. -/
theorem answer_of_some (h : Lists getObjects noSchemas names c) {n : String}
    (ifNotFound : OnEntryNotFound) {e : AdbcSchemaEntry}
    (hk : c.ownedSchemas.lookup (lower (getInternalSchemaName noSchemas n)) = some e) :
    c.answer getObjects n ifNotFound = .ok (some (schemaOf noSchemas e)) := by
  rw [← h.flag] at hk ⊢
  rw [answer]
  rcases c.lookupSchema_cases getObjects n ifNotFound rfl with
    ⟨_, hl, he⟩ | ⟨hl, -⟩ | ⟨hl, -⟩ | ⟨hl, -⟩
  · obtain rfl := Option.some.inj (hl.symm.trans hk)
    rw [he]
    rfl
  · cases hk.symm.trans hl
  · cases hk.symm.trans hl
  · cases hk.symm.trans hl

/-- The answer from the list of names. -/
theorem answer_of_none (h : Lists getObjects noSchemas names c) {n : String}
    (ifNotFound : OnEntryNotFound)
    (hk : c.ownedSchemas.lookup (lower (getInternalSchemaName noSchemas n)) = none) :
    c.answer getObjects n ifNotFound = listedAnswer noSchemas names n ifNotFound := by
  rw [← h.flag] at hk ⊢
  rw [answer, listedAnswer]
  rcases c.lookupSchema_cases getObjects n ifNotFound rfl with
    ⟨_, hl, -⟩ | ⟨_, e, herror, -⟩ | ⟨_, found, hfound, hmem, he⟩ | ⟨_, found, hfound, hmem, he⟩
  · cases hk.symm.trans hl
  · cases h.listed.symm.trans herror
  · cases h.listed.symm.trans hfound
    rw [he, if_pos hmem]
    simp only [Except.map, Option.map_some, schemaOf, AdbcSchemaEntry.new,
      getInternalSchemaName_external]
  · cases h.listed.symm.trans hfound
    rw [he, if_neg hmem]

end Lists

/-- The keys after `ScanSchemas`: those before it, and those of the names. -/
theorem isSome_scanNames {c : AdbcCatalog} {names : List String} {k : List Char}
    (h : (c.ownedSchemas.lookup k).isSome ∨
      ∃ s ∈ names, lower (getInternalSchemaName c.noSchemas s) = k) :
    ((c.scanNames names).2.ownedSchemas.lookup k).isSome := by
  induction names generalizing c with
  | nil => simpa [scanNames] using h
  | cons s names ih =>
    rw [scanNames_cons]
    -- the entry for `s` is there after the first round, and all that was there before
    rcases createCatalogEntry_cases (getInternalSchemaName_idem c.noSchemas s) with
      ⟨e, hl, he⟩ | ⟨hl, he⟩
    · rw [he]
      refine ih ?_
      rcases h with hk | ⟨t, ht, rfl⟩
      · exact .inl hk
      · rcases List.mem_cons.mp ht with rfl | ht
        · exact .inl (by rw [hl]; rfl)
        · exact .inr ⟨t, ht, rfl⟩
    · rw [he]
      refine ih ?_
      by_cases hkey : k = lower (getInternalSchemaName c.noSchemas s)
      · exact .inl (by rw [hkey, withEntry, AList.lookup_insert]; rfl)
      · rcases h with hk | ⟨t, ht, rfl⟩
        · exact .inl (by rw [withEntry, AList.lookup_insert_ne hkey]; exact hk)
        · rcases List.mem_cons.mp ht with rfl | ht
          · exact absurd rfl hkey
          · exact .inr ⟨t, ht, rfl⟩

theorem eq_empty_of_lower {s : String} (h : lower s = lower "") : s = "" := by
  have hlist : s.toList = [] := by simpa [lower] using h
  rw [← String.ofList_toList (s := s), hlist]

section HistoryFree
variable {getObjects : GetObjects} {c : AdbcCatalog} {names : List String}

theorem lookup_of_empty (hempty : c.ownedSchemas = ∅) (k : List Char) :
    c.ownedSchemas.lookup k = none := by rw [hempty, AList.lookup_empty]

/-- `ScanSchemas` creates an entry for every listed name, so a spelling of one is found
afterwards. -/
theorem listed_of_historyFree (hempty : c.ownedSchemas = ∅)
    (hlisted : (c.getCachedSchemaNames getObjects).1 = .ok names) {n s : String}
    (hfree : c.HistoryFree getObjects n) (hs : s ∈ names)
    (hlower : lower (getInternalSchemaName c.noSchemas s) =
      lower (getInternalSchemaName c.noSchemas n)) :
    getInternalSchemaName c.noSchemas n ∈ names := by
  have hstart : Lists getObjects c.noSchemas names c := .of_empty hempty hlisted
  have hscanned := isSome_scanNames (c := c.withNames names) (.inr ⟨s, hs, hlower⟩)
  obtain ⟨e, he⟩ := Option.isSome_iff_exists.mp hscanned
  have hcall : c.call getObjects .scanSchemas = ((c.withNames names).scanNames names).2 := by
    simp only [call, scanSchemas, hstart.getCachedSchemaNames_eq]
  rw [← hcall] at he
  have hafter := (hstart.call .scanSchemas).answer_of_some .returnNull he
  have hbefore := hstart.answer_of_none (n := n) .returnNull (lookup_of_empty hempty _)
  have hsame : c.answer getObjects n .returnNull =
      (c.call getObjects .scanSchemas).answer getObjects n .returnNull :=
    hfree [] [.scanSchemas] .returnNull
  by_contra hmem
  rw [hbefore, hafter, listedAnswer, if_neg hmem] at hsame
  cases hsame

/-- A listed schema is its own internal name, or the one without a name. -/
theorem getInternalSchemaName_cases (noSchemas : Bool) (s : String) :
    getInternalSchemaName noSchemas s = s ∨ getInternalSchemaName noSchemas s = "" := by
  unfold getInternalSchemaName
  split
  · exact .inr rfl
  · exact .inl rfl

/-- The first lookup of a listed schema creates its entry. -/
theorem call_lookup_listed (hempty : c.ownedSchemas = ∅)
    (hlisted : (c.getCachedSchemaNames getObjects).1 = .ok names) {s : String} (hs : s ∈ names)
    (hself : getInternalSchemaName c.noSchemas s = s) :
    c.call getObjects (.lookupSchema s .returnNull) = (c.withNames names).withEntry s := by
  rcases c.lookupSchema_cases getObjects s .returnNull hself with
    ⟨_, hl, _⟩ | ⟨_, e, herror, _⟩ | ⟨_, found, hfound, _, he⟩ | ⟨_, found, hfound, hnot, _⟩
  · cases (lookup_of_empty hempty _).symm.trans hl
  · cases hlisted.symm.trans herror
  · cases hlisted.symm.trans hfound
    rw [call, he]
  · cases hlisted.symm.trans hfound
    exact absurd hs hnot

theorem same_of_historyFree (hempty : c.ownedSchemas = ∅)
    (hlisted : (c.getCachedSchemaNames getObjects).1 = .ok names) {n s : String}
    (hfree : c.HistoryFree getObjects n) (hs : s ∈ names)
    (hlower : lower (getInternalSchemaName c.noSchemas s) =
      lower (getInternalSchemaName c.noSchemas n)) :
    getInternalSchemaName c.noSchemas s = getInternalSchemaName c.noSchemas n := by
  have hstart : Lists getObjects c.noSchemas names c := .of_empty hempty hlisted
  rcases getInternalSchemaName_cases c.noSchemas s with hself | hblank
  · have hcall := call_lookup_listed hempty hlisted hs hself
    have hkey : (c.call getObjects (.lookupSchema s .returnNull)).ownedSchemas.lookup
        (lower (getInternalSchemaName c.noSchemas n)) =
          some (.new (getExternalSchemaName c.noSchemas s)) := by
      rw [hcall, ← hlower, hself]
      exact AList.lookup_insert _
    have hafter := (hstart.call (.lookupSchema s .returnNull)).answer_of_some .returnNull hkey
    have hbefore := hstart.answer_of_none (n := n) .returnNull (lookup_of_empty hempty _)
    have hsame : c.answer getObjects n .returnNull =
        (c.call getObjects (.lookupSchema s .returnNull)).answer getObjects n .returnNull :=
      hfree [] [.lookupSchema s .returnNull] .returnNull
    have hmem := listed_of_historyFree hempty hlisted hfree hs hlower
    have hexternal := getInternalSchemaName_external c.noSchemas s
    rw [hself] at hexternal
    rw [hbefore, hafter, listedAnswer, if_pos hmem, schemaOf, AdbcSchemaEntry.new,
      hexternal] at hsame
    rw [hself]
    exact (Option.some.inj (Except.ok.inj hsame)).symm
  · rw [hblank] at hlower ⊢
    exact (eq_empty_of_lower hlower.symm).symm

/-- **When a schema lookup does not depend on the earlier calls.**  The answer for a name is the
same after all earlier lookups and scans if and only if every listed schema whose name differs
from the requested one in nothing but case is the requested one, and is listed under its internal
name. -/
theorem historyFree_iff (getObjects : GetObjects) {c : AdbcCatalog} {names : List String}
    (hempty : c.ownedSchemas = ∅) (hlisted : (c.getCachedSchemaNames getObjects).1 = .ok names)
    (n : String) :
    c.HistoryFree getObjects n ↔ ∀ s ∈ names,
      lower (getInternalSchemaName c.noSchemas s) = lower (getInternalSchemaName c.noSchemas n) →
        getInternalSchemaName c.noSchemas s = getInternalSchemaName c.noSchemas n ∧
          getInternalSchemaName c.noSchemas n ∈ names := by
  have hstart : Lists getObjects c.noSchemas names c := .of_empty hempty hlisted
  constructor
  · intro hfree s hs hlower
    exact ⟨same_of_historyFree hempty hlisted hfree hs hlower,
      listed_of_historyFree hempty hlisted hfree hs hlower⟩
  · intro hcond earlier earlier' ifNotFound
    -- after any calls the answer is that of the list of names
    have hanswer : ∀ d, Lists getObjects c.noSchemas names d →
        d.answer getObjects n ifNotFound = listedAnswer c.noSchemas names n ifNotFound := by
      intro d hd
      cases hk : d.ownedSchemas.lookup (lower (getInternalSchemaName c.noSchemas n)) with
      | none => exact hd.answer_of_none ifNotFound hk
      | some e =>
        obtain ⟨s, hs, hkey, hstands⟩ := hd.entries _ _ hk
        obtain ⟨hsame, hmem⟩ := hcond s hs hkey.symm
        rw [hd.answer_of_some ifNotFound hk, listedAnswer, if_pos hmem, hstands, hsame]
    rw [hanswer _ (hstart.run earlier), hanswer _ (hstart.run earlier')]

/-- A remote without a name that differs from `sales` in nothing but case: the lookup of `sales`
depends on nothing. -/
theorem lower_case_schema_historyFree :
    HistoryFree (answering ⟨[], .endOfStream, by decide⟩ ⟨[], .endOfStream, by decide⟩)
      ⟨"", false, ∅, ["main", "sales"], true⟩ "sales" :=
  (historyFree_iff _ rfl rfl _).mpr (by decide)

/-- A remote that lists a schema as `Sales`: `sales` is not found at first, and is found after a
scan. -/
theorem capitalized_schema_not_historyFree :
    ¬ HistoryFree (answering ⟨[], .endOfStream, by decide⟩ ⟨[], .endOfStream, by decide⟩)
      ⟨"", false, ∅, ["Sales"], true⟩ "sales" := by
  intro h
  have hsame := h [] [.scanSchemas] .returnNull
  revert hsame
  decide

end HistoryFree

end AdbcCatalog

end AdbcClient
