import AdbcClient.CatalogRefresh
import Mathlib.Logic.Function.Basic

/-!
# Concurrent schema lookups

Every access to the caches of a catalog takes `schemas_mutex`, but a lookup consists of
several: it probes the map, loads the names, searches them, and creates the entry
(`adbc_catalog.cpp`).  The search goes through a reference to the vector after the lock is
released, so another client's `ClearCache` can fall in front of it.

A step (`CatalogStep`) is one of these parts of one client's lookup, or a `ClearCache`; a
list of steps is a schedule.  `answered_iff` says in which schedules every lookup of a
schema that the remote lists throughout returns an entry for it.
-/
namespace AdbcClient
open Runs AdbcCatalog

/-- Where a client's `LookupSchema` is, with the requested name: in front of one of its
parts, or past them.  A missing schema is `none`. -/
inductive SchemaLookup where
  | idle
  | probing (schemaName : String)
  | loading (schemaName : String)
  | searching (schemaName : String)
  | creating (schemaName : String)
  | returned (schemaName : String) (entry : Option AdbcSchemaEntry)
  | failed (schemaName : String) (error : MetadataError)

/-- A catalog that several clients use, with the place in its lookup where each client is. -/
structure SharedCatalog where
  catalog : AdbcCatalog
  clients : Nat → SchemaLookup

/-- One step of one client: the start of a lookup, one of its parts, or a `ClearCache`. -/
inductive CatalogStep where
  | start (client : Nat) (schemaName : String)
  | probe (client : Nat)
  | load (client : Nat) (getObjects : GetObjects)
  | search (client : Nat)
  | create (client : Nat)
  | clearCache

namespace SharedCatalog

/-- The shared catalog after one client has gone on to another part of its lookup; the others are
where they were. -/
def move (w : SharedCatalog) (client : Nat) (lookup : SchemaLookup) (catalog : AdbcCatalog) :
    SharedCatalog := ⟨catalog, Function.update w.clients client lookup⟩

@[simp] theorem move_self (w : SharedCatalog) (client : Nat) (lookup : SchemaLookup)
    (catalog : AdbcCatalog) : (w.move client lookup catalog).clients client = lookup :=
  Function.update_self ..

theorem move_other (w : SharedCatalog) {client other : Nat} (h : other ≠ client)
    (lookup : SchemaLookup) (catalog : AdbcCatalog) :
    (w.move client lookup catalog).clients other = w.clients other := Function.update_of_ne h ..

/-- The effect of a step, which does nothing for a client that is elsewhere.  The remote
answers a request for the names with `getObjects`. -/
def next (w : SharedCatalog) : CatalogStep → SharedCatalog
  | .start i schemaName =>
    match w.clients i with
    | .idle => w.move i (.probing schemaName) w.catalog
    | .returned _ _ => w.move i (.probing schemaName) w.catalog
    | .failed _ _ => w.move i (.probing schemaName) w.catalog
    | _ => w
  | .probe i =>
    match w.clients i with
    | .probing schemaName =>
      let internalName := getInternalSchemaName w.catalog.noSchemas schemaName
      match w.catalog.getCatalogEntry internalName with
      | some entry => w.move i (.returned schemaName (some entry)) w.catalog
      | none => w.move i (.loading schemaName) w.catalog
    | _ => w
  | .load i getObjects =>
    match w.clients i with
    | .loading schemaName =>
      match w.catalog.getCachedSchemaNames getObjects with
      | (.error e, catalog) => w.move i (.failed schemaName e) catalog
      | (.ok _, catalog) => w.move i (.searching schemaName) catalog
    | _ => w
  | .search i =>
    match w.clients i with
    | .searching schemaName =>
      let internalName := getInternalSchemaName w.catalog.noSchemas schemaName
      -- `names` is a reference to the vector of the catalog
      if internalName ∈ w.catalog.cachedSchemaNames then
        w.move i (.creating schemaName) w.catalog
      else w.move i (.returned schemaName none) w.catalog
    | _ => w
  | .create i =>
    match w.clients i with
    | .creating schemaName =>
      let internalName := getInternalSchemaName w.catalog.noSchemas schemaName
      let (entry, catalog) := w.catalog.createCatalogEntry internalName
      w.move i (.returned schemaName (some entry)) catalog
    | _ => w
  | .clearCache => { w with catalog := w.catalog.clearCache }

/-! ## What is to hold -/

/-- An answer is the entry of a schema: there is one, and it is for that schema at the remote. -/
def IsEntryOf (noSchemas : Bool) (s : String) (entry : Option AdbcSchemaEntry) : Prop :=
  ∃ e, entry = some e ∧ schemaOf noSchemas e = s

/-- **Every lookup of `s` that has returned has found it.** -/
def Answered (s : String) (w : SharedCatalog) : Prop :=
  ∀ i entry, w.clients i = .returned s entry → IsEntryOf w.catalog.noSchemas s entry

/-- The remote lists `s` when it is asked. -/
def Exists (s : String) (w : SharedCatalog) : CatalogStep → Prop
  | .load _ getObjects => w.catalog.schemaNamesLoaded = false →
    ∃ names, fetchSchemaNames getObjects w.catalog.catalogName = .ok names ∧ s ∈ names
  | _ => True

/-- An entry that is filed where that of `s` belongs is that of `s`. -/
def SlotFits (s : String) (w : SharedCatalog) : Prop :=
  ∀ e, w.catalog.ownedSchemas.lookup (lower s) = some e → schemaOf w.catalog.noSchemas e = s

/-- A lookup of `s` searches the names while they are loaded, and looks into the map where
no other schema has the place of `s`. -/
def Undisturbed (s : String) (w : SharedCatalog) : CatalogStep → Prop
  | .probe i => w.clients i = .probing s → SlotFits s w
  | .search i => w.clients i = .searching s → w.catalog.schemaNamesLoaded = true
  | .create i => w.clients i = .creating s → SlotFits s w
  | _ => True

/-- A catalog of a remote that lists `s`. -/
structure Serves (s : String) (c : AdbcCatalog) : Prop where
  internal : getInternalSchemaName c.noSchemas s = s
  listed : c.schemaNamesLoaded = true → s ∈ c.cachedSchemaNames
  cleared : c.schemaNamesLoaded = false → c.cachedSchemaNames = []

end SharedCatalog

/-- `ATTACH` gives such a catalog: it lists the schemas that the remote lists. -/
theorem serves_attach {getObjects : GetObjects} {catalogName : String} {c : AdbcCatalog}
    (h : attach getObjects catalogName = .ok c) {s : String} (hs : s ∈ c.cachedSchemaNames) :
    SharedCatalog.Serves s c := by
  unfold attach at h
  cases hfetch : fetchSchemaNames getObjects catalogName with
  | error e =>
    rw [hfetch] at h
    cases h
  | ok names =>
    rw [hfetch] at h
    obtain rfl := Except.ok.inj h
    refine ⟨?_, fun _ => hs, nofun⟩
    -- the flag is set only if the schema without a name is the only one
    cases hflag : names == [""] with
    | false => simp [getInternalSchemaName, hflag]
    | true =>
      obtain rfl : names = [""] := by simpa using hflag
      obtain rfl := List.mem_singleton.mp hs
      show getInternalSchemaName true "" = ""
      decide

namespace SharedCatalog
variable {s : String} {w : SharedCatalog}

/-! ## One step -/

/-- A client that goes on answers for itself. -/
theorem answered_move (h : Answered s w) {catalog : AdbcCatalog}
    (hflag : catalog.noSchemas = w.catalog.noSchemas) (i : Nat) (lookup : SchemaLookup) :
    Answered s (w.move i lookup catalog) ↔
      ∀ entry, lookup = .returned s entry → IsEntryOf w.catalog.noSchemas s entry := by
  constructor
  · intro hmoved entry hlookup
    rw [← hflag]
    exact hmoved i entry (by rw [move_self, hlookup])
  · intro hlookup j entry hj
    show IsEntryOf catalog.noSchemas s entry
    rw [hflag]
    by_cases hij : j = i
    · subst hij
      rw [move_self] at hj
      exact hlookup entry hj
    · rw [move_other w hij] at hj
      exact h j entry hj

/-- A client that has not returned has not answered. -/
theorem answered_moving (h : Answered s w) {catalog : AdbcCatalog}
    (hflag : catalog.noSchemas = w.catalog.noSchemas) (i : Nat) {lookup : SchemaLookup}
    (hmoving : ∀ entry, lookup ≠ .returned s entry) : Answered s (w.move i lookup catalog) :=
  (answered_move h hflag i lookup).mpr (fun entry he => absurd he (hmoving entry))

/-- The answer to a lookup of another schema does not matter. -/
theorem answered_other (h : Answered s w) {catalog : AdbcCatalog}
    (hflag : catalog.noSchemas = w.catalog.noSchemas) (i : Nat) {n : String} (hn : n ≠ s)
    (entry : Option AdbcSchemaEntry) : Answered s (w.move i (.returned n entry) catalog) :=
  answered_moving h hflag i (fun _ he => hn (SchemaLookup.returned.inj he).1)

/-- Creating an entry leaves the names alone. -/
theorem createCatalogEntry_names (c : AdbcCatalog) (n : String) :
    let created := (c.createCatalogEntry (getInternalSchemaName c.noSchemas n)).2
    created.noSchemas = c.noSchemas ∧ created.cachedSchemaNames = c.cachedSchemaNames ∧
      created.schemaNamesLoaded = c.schemaNamesLoaded := by
  rcases createCatalogEntry_cases (getInternalSchemaName_idem c.noSchemas n) with
    ⟨_, _, he⟩ | ⟨_, he⟩
  · rw [he]
    exact ⟨rfl, rfl, rfl⟩
  · rw [he]
    exact ⟨rfl, rfl, rfl⟩

/-- The probe answers with what is in the place of `s`, if anything is. -/
theorem answered_probe (hserves : Serves s w.catalog) (h : Answered s w) (i : Nat) :
    Answered s (w.next (.probe i)) ↔ Undisturbed s w (.probe i) := by
  simp only [next, Undisturbed, SlotFits]
  split
  · rename_i n hclient
    by_cases hn : n = s
    · subst hn
      rw [getCatalogEntry_internal, hserves.internal]
      cases hl : w.catalog.ownedSchemas.lookup (lower n) with
      | none =>
        exact iff_of_true (answered_moving h rfl i nofun) (fun _ e he => by cases he)
      | some e =>
        rw [answered_move h rfl]
        simp [hclient, IsEntryOf]
    · have hother : w.clients i ≠ .probing s := by
        rw [hclient]
        exact fun he => hn (SchemaLookup.probing.inj he)
      refine iff_of_true ?_ (fun he => absurd he hother)
      split
      · exact answered_other h rfl i hn _
      · exact answered_moving h rfl i nofun
  · rename_i hclient
    exact iff_of_true h (fun he => absurd he (hclient s))

/-- The search finds `s` exactly if the names are loaded. -/
theorem answered_search (hserves : Serves s w.catalog) (h : Answered s w) (i : Nat) :
    Answered s (w.next (.search i)) ↔ Undisturbed s w (.search i) := by
  simp only [next, Undisturbed]
  split
  · rename_i n hclient
    by_cases hn : n = s
    · subst hn
      rw [hserves.internal]
      cases hloaded : w.catalog.schemaNamesLoaded with
      | true =>
        rw [if_pos (hserves.listed hloaded)]
        exact iff_of_true (answered_moving h rfl i nofun) (fun _ => rfl)
      | false =>
        have hgone : n ∉ w.catalog.cachedSchemaNames := by
          rw [hserves.cleared hloaded]
          exact List.not_mem_nil
        rw [if_neg hgone, answered_move h rfl]
        simp [hclient, IsEntryOf]
    · have hother : w.clients i ≠ .searching s := by
        rw [hclient]
        exact fun he => hn (SchemaLookup.searching.inj he)
      refine iff_of_true ?_ (fun he => absurd he hother)
      split
      · exact answered_moving h rfl i nofun
      · exact answered_other h rfl i hn _
  · rename_i hclient
    exact iff_of_true h (fun he => absurd he (hclient s))

/-- The creation answers with what is in the place of `s`. -/
theorem answered_create (hserves : Serves s w.catalog) (h : Answered s w) (i : Nat) :
    Answered s (w.next (.create i)) ↔ Undisturbed s w (.create i) := by
  simp only [next, Undisturbed, SlotFits]
  split
  · rename_i n hclient
    have hflag := createCatalogEntry_names w.catalog n
    by_cases hn : n = s
    · subst hn
      rw [answered_move h hflag.1, hserves.internal]
      have hexternal := getInternalSchemaName_external w.catalog.noSchemas n
      rw [hserves.internal] at hexternal
      rcases createCatalogEntry_cases hserves.internal with ⟨e, hl, he⟩ | ⟨hl, he⟩
      · simp [he, hl, hclient, IsEntryOf]
      · simp [he, hl, hclient, IsEntryOf, schemaOf, AdbcSchemaEntry.new, hexternal]
    · have hother : w.clients i ≠ .creating s := by
        rw [hclient]
        exact fun he => hn (SchemaLookup.creating.inj he)
      exact iff_of_true (answered_other h hflag.1 i hn _) (fun he => absurd he hother)
  · rename_i hclient
    exact iff_of_true h (fun he => absurd he (hclient s))

/-- **What one step does to the answers**: it leaves them right exactly if the lookup of
`s` that makes it, if any, is undisturbed. -/
theorem answered_next (hserves : Serves s w.catalog) (h : Answered s w) (a : CatalogStep) :
    Answered s (w.next a) ↔ Undisturbed s w a := by
  cases a with
  | probe i => exact answered_probe hserves h i
  | search i => exact answered_search hserves h i
  | create i => exact answered_create hserves h i
  | clearCache => exact iff_of_true h trivial
  | start i n =>
    refine iff_of_true ?_ trivial
    simp only [next]
    split
    · exact answered_moving h rfl i nofun
    · exact answered_moving h rfl i nofun
    · exact answered_moving h rfl i nofun
    · exact h
  | load i getObjects =>
    refine iff_of_true ?_ trivial
    simp only [next]
    split
    · rcases w.catalog.getCachedSchemaNames_cases getObjects with ⟨e, he⟩ | ⟨names, he⟩
      · rw [he]
        exact answered_moving h rfl i nofun
      · rw [he]
        exact answered_moving h rfl i nofun
    · exact h

/-- What stays the same but for the entries. -/
theorem Serves.congr {c d : AdbcCatalog} (h : Serves s c) (hflag : d.noSchemas = c.noSchemas)
    (hnames : d.cachedSchemaNames = c.cachedSchemaNames)
    (hloaded : d.schemaNamesLoaded = c.schemaNamesLoaded) : Serves s d where
  internal := by rw [hflag, h.internal]
  listed := by
    rw [hloaded, hnames]
    exact h.listed
  cleared := by
    rw [hloaded, hnames]
    exact h.cleared

theorem Serves.getCachedSchemaNames {getObjects : GetObjects} {c : AdbcCatalog} (h : Serves s c)
    (hexists : c.schemaNamesLoaded = false →
      ∃ names, fetchSchemaNames getObjects c.catalogName = .ok names ∧ s ∈ names) :
    Serves s (c.getCachedSchemaNames getObjects).2 := by
  unfold AdbcCatalog.getCachedSchemaNames
  cases hloaded : c.schemaNamesLoaded with
  | true =>
    rw [if_pos rfl]
    exact h
  | false =>
    obtain ⟨names, hfetch, hs⟩ := hexists hloaded
    rw [hfetch]
    exact ⟨h.internal, fun _ => hs, nofun⟩

/-- **Every step keeps the names as the remote lists them**, or clears them. -/
theorem serves_next (h : Serves s w.catalog) {a : CatalogStep} (hexists : Exists s w a) :
    Serves s (w.next a).catalog := by
  cases a with
  | clearCache => exact ⟨h.internal, nofun, fun _ => rfl⟩
  | start i n =>
    simp only [next]
    split <;> exact h
  | probe i =>
    simp only [next]
    split
    · split <;> exact h
    · exact h
  | search i =>
    simp only [next]
    split
    · split <;> exact h
    · exact h
  | load i getObjects =>
    have hloaded := h.getCachedSchemaNames hexists
    simp only [next]
    split
    · split
      · rename_i he
        rw [he] at hloaded
        exact hloaded
      · rename_i he
        rw [he] at hloaded
        exact hloaded
    · exact h
  | create i =>
    simp only [next]
    split
    · rename_i n _
      obtain ⟨hflag, hnames, hloaded⟩ := createCatalogEntry_names w.catalog n
      exact h.congr hflag hnames hloaded
    · exact h

/-- **When every lookup finds the schema.**  In a schedule of any number of clients, where the
remote lists `s` whenever it is asked, every lookup of `s` that returns has found it if and only if
each search runs while the names are loaded, and no other schema has taken the place of `s` in the
map. -/
theorem answered_iff (hserves : Serves s w.catalog) (hw : Answered s w)
    {schedule : List CatalogStep} (hexists : Meets next (Exists s) w schedule) :
    Visits next (Answered s) w schedule ↔ Meets next (Undisturbed s) w schedule :=
  visits_iff_meets (I := fun w => Serves s w.catalog) (P := Answered s) (A := Exists s)
    (fun _ _ h hexists => serves_next h hexists) (fun _ a h _ hw => answered_next h hw a) hserves hw
    hexists

/-- Two lookups of the schema of a remote.  A `ClearCache` falls between the parts of the second,
which then loads the names again. -/
theorem two_lookups_answered :
    let w : SharedCatalog := ⟨⟨"", false, ∅, ["s"], true⟩, fun _ => .idle⟩
    Visits next (Answered "s") w
      [.start 0 "s", .probe 0, .start 1 "s", .probe 1, .load 0 namedSchema.getObjects, .search 0,
        .create 0, .clearCache, .load 1 namedSchema.getObjects, .search 1, .create 1] := by
  intro w
  have hserves : Serves "s" w.catalog :=
    serves_attach attachTo_namedSchema (List.mem_singleton_self _)
  have hlisted : fetchSchemaNames namedSchema.getObjects "" = .ok ["s"] := by
    rw [namedSchema, fetchSchemaNames_answering]
    rfl
  refine (answered_iff hserves (fun _ _ h => by cases h) ?_).mpr ?_
  · exact ⟨trivial, trivial, trivial, trivial, fun h => Bool.noConfusion h, trivial, trivial,
      trivial, fun _ => ⟨["s"], hlisted, List.mem_singleton_self _⟩, trivial, trivial, trivial⟩
  · refine ⟨trivial, fun _ e he => ?_, trivial, fun _ e he => ?_, trivial, fun _ => rfl,
      fun _ e he => ?_, trivial, trivial, fun _ => rfl, fun _ e he => ?_, trivial⟩
    · cases he
    · cases he
    · cases he
    · cases he

/-- A `ClearCache` between the load of the names and the search for one: the lookup does not find
the schema. -/
theorem cleared_lookup_not_answered :
    let w : SharedCatalog := ⟨⟨"", false, ∅, ["main"], true⟩, fun _ => .idle⟩
    let unused : GetObjects := answering ⟨[], .endOfStream, by decide⟩ ⟨[], .endOfStream, by decide⟩
    Serves "main" w.catalog ∧ Answered "main" w ∧
      Meets next (Exists "main") w
        [.start 0 "main", .probe 0, .load 0 unused, .clearCache, .search 0] ∧
      ¬ Visits next (Answered "main") w
        [.start 0 "main", .probe 0, .load 0 unused, .clearCache, .search 0] := by
  intro w unused
  refine ⟨⟨rfl, fun _ => List.mem_singleton_self _, fun h => Bool.noConfusion h⟩,
    (fun _ _ h => by cases h),
    ⟨trivial, trivial, fun h => Bool.noConfusion h, trivial, trivial, trivial⟩, fun h => ?_⟩
  obtain ⟨_, _, _, _, _, hlast⟩ := h
  obtain ⟨e, he, _⟩ := hlast 0 none rfl
  cases he

end SharedCatalog

end AdbcClient
