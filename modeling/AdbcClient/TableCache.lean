import AdbcClient.Catalog
import AdbcClient.Runs
import Mathlib.Data.Option.Basic

/-!
# The table cache and the remote schema

What a client sees of a remote schema through its cache.  A `Query` is a call of
`LookupEntry` or `Scan`; it reads the remote and fills the cache.  `Knows s names`
is what the flag of the cache stands for: once it is set, the cache holds an entry
for each of `names`.  Queries keep it for names that exist at the remote
(`Query.knows`), and a cache that knows all of them answers like the remote
(`Knows.lookupEntry_isSome_iff`, `Knows.scan_entries`).

Two results are drawn from it.  With `CREATE TABLE` in the run, the cache answers
like the remote exactly as long as every table is created while the cache holds all
the others (`tables_complete_iff`): `CreateTable` sets the flag without having
loaded the list.  And on an unchanged remote, the answer for a name is the same
after all histories exactly if no table's name differs from it in case only, unless
to the remote they are one name (`lookup_history_free_iff`).
-/
namespace AdbcClient
open Runs AdbcSchemaEntry

/-- A call that reads the catalog.  `listing` is what the remote answers to a metadata
request, if `Scan` makes one. -/
inductive Query where
  | lookupEntry (name : String)
  | scan (listing : List String)
  deriving DecidableEq, Repr

/-- The cache after a query, whose metadata requests list these names. -/
def Query.next (noSchemas : Bool) (R : RemoteSchema) (s : AdbcSchemaEntry) :
    Query → AdbcSchemaEntry
  | lookupEntry n => (s.lookupEntry R.bind n).2
  | scan listing => (s.scan noSchemas .tableEntry (fun _ => .ok listing) R.bind).2

/-- A metadata request succeeds and lists the tables of the remote, in some order. -/
def Query.Admissible (R : RemoteSchema) : Query → Prop
  | lookupEntry _ => True
  | scan listing => listing.Perm R.names

/-- The names a query binds, if they are not cached. -/
def Query.requested : Query → List String
  | lookupEntry n => [n]
  | scan listing => listing

/-- If the flag is set then these names are cached. -/
def Knows (s : AdbcSchemaEntry) (names : List String) : Prop :=
  s.tablesLoaded = true → ∀ n ∈ names, lower n ∈ s.ownedTables

theorem knows_new (name : String) (names : List String) : Knows (.new name) names :=
  fun h => Bool.noConfusion h

section Queries
variable {noSchemas : Bool} {R : RemoteSchema} {s : AdbcSchemaEntry} {names : List String}

theorem Query.reflects (h : Reflects R s) (q : Query) : Reflects R (q.next noSchemas R s) := by
  cases q with
  | lookupEntry n => exact h.internal n
  | scan listing =>
    rcases scan_listed_cases noSchemas listing R.bind s with ⟨_, he⟩ | ⟨_, he⟩
    · rwa [Query.next, he]
    · rw [Query.next, he]
      exact (h.loadTables listing).setLoaded true

/-- **The keys after a query**: those before it, and those of the names that it has bound at the
remote. -/
theorem Query.mem_next (q : Query) {k : List Char} :
    k ∈ (q.next noSchemas R s).ownedTables ↔ k ∈ s.ownedTables ∨
      (s.tablesLoaded = false ∧ ∃ n ∈ q.requested, k = lower n ∧ (R.bind n).isSome) := by
  cases q with
  | lookupEntry n =>
    rw [Query.next, AdbcSchemaEntry.lookupEntry, mem_internal]
    simp only [Query.requested, List.mem_singleton, exists_eq_left]
    tauto
  | scan listing =>
    rcases scan_listed_cases noSchemas listing R.bind s with ⟨hloaded, he⟩ | ⟨_, he⟩
    · rw [Query.next, he]
      simp [hloaded]
    · rw [Query.next, he]
      exact mem_loadTables

/-- What is cached stays in the map with the same entry, whatever is asked for. -/
theorem Query.lookup_next (q : Query) {k : List Char} {e : AdbcTableEntry}
    (h : s.ownedTables.lookup k = some e) :
    (q.next noSchemas R s).ownedTables.lookup k = some e := by
  cases q with
  | lookupEntry n => exact lookup_internal h n
  | scan listing =>
    rcases scan_listed_cases noSchemas listing R.bind s with ⟨_, he⟩ | ⟨_, he⟩
    · rwa [Query.next, he]
    · rw [Query.next, he]
      exact lookup_loadTables h listing

/-- `Scan` calls back the entries it leaves in the cache, and marks it complete. -/
theorem Query.scan_next (noSchemas : Bool) (R : RemoteSchema) (s : AdbcSchemaEntry)
    (listing : List String) :
    (s.scan noSchemas .tableEntry (fun _ => .ok listing) R.bind).1 =
        .ok (next noSchemas R s (.scan listing)).entries ∧
      (next noSchemas R s (.scan listing)).tablesLoaded = true := by
  rw [next]
  rcases scan_listed_cases noSchemas listing R.bind s with ⟨hloaded, he⟩ | ⟨_, he⟩
  · rw [he]
    exact ⟨rfl, hloaded⟩
  · rw [he]
    exact ⟨rfl, rfl⟩

/-- A listing has every name of the remote, in one of the spellings it takes for it. -/
theorem exists_listed {listing : List String} (hl : listing.Perm R.names) {n : String}
    (hn : (R.resolve n).isSome) : ∃ m ∈ listing, lower n = lower m ∧ (R.bind m).isSome := by
  obtain ⟨m, hm, hs⟩ := RemoteSchema.resolve_isSome_iff.mp hn
  refine ⟨m, hl.mem_iff.mpr hm, (lower_eq_of_sameName hs).symm, ?_⟩
  rw [RemoteSchema.bind_isSome_iff, RemoteSchema.resolve_congr hs]
  exact hn

/-- **A query keeps what the cache knows.** -/
theorem Query.knows (hnames : ∀ n ∈ names, (R.resolve n).isSome) {q : Query}
    (hq : q.Admissible R) (h : Knows s names) : Knows (q.next noSchemas R s) names := by
  cases q with
  | lookupEntry n =>
    intro hloaded m hm
    rw [Query.next, AdbcSchemaEntry.lookupEntry, internal_loaded] at hloaded
    exact (mem_next _).mpr (.inl (h hloaded m hm))
  | scan listing =>
    intro _ n hn
    cases hloaded : s.tablesLoaded with
    | true => exact (mem_next _).mpr (.inl (h hloaded n hn))
    | false => exact (mem_next _).mpr (.inr ⟨hloaded, exists_listed hq (hnames n hn)⟩)

namespace Knows

/-- The name of an existing table is found if the cache knows it, in any spelling. -/
theorem lookupEntry_isSome (h : Knows s names) {m n : String} (hm : m ∈ names)
    (hl : lower m = lower n) (hr : (R.resolve n).isSome) : (s.lookupEntry R.bind n).1.isSome := by
  rw [lookupEntry_isSome_iff]
  cases hloaded : s.tablesLoaded with
  | true => exact .inl (hl ▸ h hloaded m hm)
  | false => exact .inr ⟨rfl, RemoteSchema.bind_isSome_iff.mpr hr⟩

/-- **Found in the catalog, found at the remote**, unless the cache has the name for a
table that the remote calls otherwise. -/
theorem lookupEntry_isSome_iff (h : Knows s R.names) {n : String}
    (hn : lower n ∈ s.ownedTables → (R.resolve n).isSome) :
    (s.lookupEntry R.bind n).1.isSome ↔ (R.resolve n).isSome := by
  constructor
  · intro hfound
    rcases AdbcSchemaEntry.lookupEntry_isSome_iff.mp hfound with hk | ⟨_, hr⟩
    · exact hn hk
    · exact RemoteSchema.bind_isSome_iff.mp hr
  · intro hr
    obtain ⟨m, hm, hsame⟩ := RemoteSchema.resolve_isSome_iff.mp hr
    exact h.lookupEntry_isSome hm (lower_eq_of_sameName hsame) hr

/-- **`Scan` lists an entry for each key it knows**, and no others. -/
theorem scan_entries (noSchemas : Bool) (h : Knows s names) (hs : Reflects R s)
    (hnames : ∀ n ∈ names, (R.resolve n).isSome) {listing : List String}
    (hl : listing.Perm R.names) :
    ∃ s', Reflects R s' ∧ (∀ n ∈ names, lower n ∈ s'.ownedTables) ∧
      (s.scan noSchemas .tableEntry (fun _ => .ok listing) R.bind).1 = .ok s'.entries := by
  obtain ⟨hentries, hloaded⟩ := Query.scan_next noSchemas R s listing
  exact ⟨_, Query.reflects hs (.scan listing), Query.knows hnames hl h hloaded, hentries⟩

end Knows

theorem resolve_isSome_of_mem {n : String} (hn : n ∈ R.names) : (R.resolve n).isSome :=
  RemoteSchema.resolve_isSome_iff.mpr ⟨n, hn, sameName_refl ..⟩

/-- Without names that differ in case only, the entries of a cache that has them
all are the remote tables, each once. -/
theorem entries_perm (hR : R.NoClash) (hs : Reflects R s)
    (hall : ∀ n ∈ R.names, lower n ∈ s.ownedTables) :
    (s.entries.map (fun e => R.resolve e.name)).Perm (R.tables.map some) := by
  have hkeys : s.entries.map (fun e => lower e.name) = s.ownedTables.keys := by
    rw [entries, List.map_map, AList.keys, List.keys]
    refine List.map_congr_left fun x hx => ?_
    exact (hs x.1 x.2 (AList.mem_lookup_iff.mpr hx)).1.symm
  have hnodup : (s.entries.map (fun e => R.resolve e.name)).Nodup := by
    -- an entry's key can be read off the table it stands for
    apply List.Nodup.of_map (fun o => (o.elim [] (fun t => lower t.name) : List Char))
    rw [List.map_map]
    convert s.ownedTables.keys_nodup using 1
    rw [← hkeys]
    refine List.map_congr_left fun e he => ?_
    obtain ⟨k, hk⟩ := mem_entries.mp he
    obtain ⟨-, t, ht, -⟩ := hs k e hk
    simp only [Function.comp_apply, ht, Option.elim_some]
    exact RemoteSchema.lower_resolve ht
  rw [List.perm_ext_iff_of_nodup hnodup
    (RemoteSchema.tables_nodup.map (Option.some_injective _))]
  intro o
  simp only [List.mem_map]
  constructor
  · rintro ⟨e, he, rfl⟩
    obtain ⟨k, hk⟩ := mem_entries.mp he
    obtain ⟨-, t, ht, -⟩ := hs k e hk
    exact ⟨t, RemoteSchema.mem_of_resolve ht, ht.symm⟩
  · rintro ⟨t, ht, rfl⟩
    obtain ⟨e, he⟩ := exists_entry (hall t.name (RemoteSchema.mem_names ht))
    obtain ⟨hkey, u, hu, -⟩ := hs _ e he
    refine ⟨e, mem_entries.mpr ⟨_, he⟩, ?_⟩
    rw [hu, hR.eq_of_lower ht (RemoteSchema.mem_of_resolve hu)
      (hkey.trans (RemoteSchema.lower_resolve hu).symm)]

end Queries

/-! ## CREATE TABLE -/

/-- An ingest in create mode.  It fails on a table that exists, and whenever the
driver does not accept it. -/
def ingest (accepts : Bool) (message : String) : Ingest := fun R _ t =>
  match accepts, R.create t with
  | true, some R' => .ok R'
  | _, _ => .error message

theorem ingest_cases (accepts : Bool) (message : String) (R : RemoteSchema) (schema : String)
    (t : RemoteTable) :
    (∃ R', accepts = true ∧ R.create t = some R' ∧ ingest accepts message R schema t = .ok R') ∨
    (¬ (accepts = true ∧ R.resolve t.name = none) ∧
      ingest accepts message R schema t = .error message) := by
  cases accepts with
  | false => exact .inr ⟨fun h => Bool.noConfusion h.1, rfl⟩
  | true =>
    cases hc : R.create t with
    | some R' => exact .inl ⟨R', rfl, rfl, by simp only [ingest, hc]⟩
    | none =>
      refine .inr ⟨fun h => ?_, by simp only [ingest, hc]⟩
      rw [RemoteSchema.create, dif_pos h.2] at hc
      cases hc

namespace TableCache

/-- The cache of a schema, and the schema at the remote. -/
structure World where
  entry : AdbcSchemaEntry
  remote : RemoteSchema

/-- The calls on a schema.  `ClearCache` destroys the entry of the schema, and the
next lookup of the schema makes a new one (`next_clearCache`). -/
inductive Operation where
  | query (query : Query)
  | createTable (info : CreateTableInfo) (accepts : Bool) (message : String)
  | clearCache

variable (noSchemas : Bool)

/-- What a call does to the cache of the schema and to the remote. -/
def next (w : World) : Operation → World
  | .query q => { w with entry := q.next noSchemas w.remote w.entry }
  | .createTable info accepts message =>
    let (_, entry, remote) :=
      w.entry.createTable noSchemas (ingest accepts message) RemoteSchema.bind info w.remote
    ⟨entry, remote⟩
  | .clearCache => { w with entry := .new w.entry.name }

/-- **Clearing the cache of a schema is clearing that of its catalog**: the entry that the catalog
makes when the schema is looked up again is the one here. -/
theorem next_clearCache (c : AdbcCatalog) {w : World} {schemaName : String}
    (hname : w.entry.name = getExternalSchemaName c.noSchemas schemaName) :
    (next noSchemas w .clearCache).entry = (c.clearCache.createCatalogEntry schemaName).1 := by
  rw [AdbcCatalog.createCatalogEntry_clearCache, ← hname]
  rfl

/-- Metadata requests succeed, and no two names at the remote differ in case only. -/
def Admissible (w : World) (op : Operation) : Prop :=
  (∀ q, op = .query q → q.Admissible w.remote) ∧ (next noSchemas w op).remote.NoClash

/-- **The cache answers like the remote**: lookups find what is there, and scans list all of it. -/
structure Answers (w : World) : Prop where
  /-- The flag is set only if every table of the remote is cached. -/
  complete : Knows w.entry w.remote.names
  /-- A lookup finds what the remote has. -/
  lookup : ∀ n, w.remote.Unambiguous n →
    ((w.entry.lookupEntry w.remote.bind n).1.isSome ↔ (w.remote.resolve n).isSome)
  /-- A scan calls back once for each remote table. -/
  scan : ∀ listing, listing.Perm w.remote.names → ∃ entries,
    (w.entry.scan noSchemas .tableEntry (fun _ => .ok listing) w.remote.bind).1 = .ok entries ∧
      (entries.map (fun e => w.remote.resolve e.name)).Perm (w.remote.tables.map some)

/-- **The cache answers like the remote**, whatever the spelling of a name. -/
structure AnswersAnyCase (w : World) : Prop extends Answers noSchemas w where
  lookupAnyCase : ∀ n,
    (w.entry.lookupEntry w.remote.bind n).1.isSome ↔ (w.remote.resolve n).isSome

/-- A `CREATE TABLE` goes through: it is no replacement, the name is not cached, the driver accepts
it, and the remote has no such table. -/
def Creates (w : World) (info : CreateTableInfo) (accepts : Bool) : Prop :=
  info.onConflict ≠ .replaceOnConflict ∧ lower info.table.name ∉ w.entry.ownedTables ∧
    accepts = true ∧ w.remote.resolve info.table.name = none

/-- A table is created only while the cache holds every other one. -/
def CreatesKnowingAll (w : World) : Operation → Prop
  | .createTable info accepts _ =>
    Creates w info accepts → ∀ n ∈ w.remote.names, lower n ∈ w.entry.ownedTables
  | _ => True

/-- No table is cached that the remote has for one spelling of its name only. -/
def CachesAnyCase (w : World) : Operation → Prop
  | .query q => w.entry.tablesLoaded = false →
      ∀ n ∈ q.requested, (w.remote.resolve n).isSome → w.remote.AnyCase n
  | .createTable info accepts _ => Creates w info accepts → w.remote.AnyCase info.table.name
  | .clearCache => True

variable {noSchemas}

/-- **What `CREATE TABLE` can do**: fail and change nothing, or create the table,
cache it and set the flag. -/
theorem createTable_cases (noSchemas : Bool) (w : World) (info : CreateTableInfo)
    (accepts : Bool) (message : String) :
    (¬ Creates w info accepts ∧ next noSchemas w (.createTable info accepts message) = w) ∨
    (Creates w info accepts ∧ ∃ R', w.remote.create info.table = some R' ∧
      next noSchemas w (.createTable info accepts message) =
        ⟨{ w.entry with
            ownedTables := w.entry.ownedTables.insert (lower info.table.name)
              ⟨info.table.name, info.table.columns⟩
            tablesLoaded := true }, R'⟩) := by
  obtain ⟨s, R⟩ := w
  by_cases hreplace : info.onConflict = .replaceOnConflict
  · exact .inl ⟨fun h => h.1 hreplace, by simp [next, createTable, hreplace]⟩
  by_cases hcached : lower info.table.name ∈ s.ownedTables
  · refine .inl ⟨fun h => h.2.1 hcached, ?_⟩
    have hsome := AList.lookup_isSome.mpr hcached
    simp [next, createTable, hreplace, hsome]
  have hnone := AList.lookup_eq_none.mpr hcached
  rcases ingest_cases accepts message R (getInternalSchemaName noSchemas info.schema) info.table
    with ⟨R', ha, hcreate, hingest⟩ | ⟨hfails, hingest⟩
  · obtain ⟨hr, -, -⟩ := RemoteSchema.create_cases hcreate
    refine .inr ⟨⟨hreplace, hcached, ha, hr⟩, R', hcreate, ?_⟩
    -- the new table is found at the remote
    have hbind : R'.bind info.table.name = some info.table.columns := by
      rw [RemoteSchema.bind, RemoteSchema.resolve_created hcreate, Option.map_some]
    simp [next, createTable, hreplace, hnone, hingest, getOrCreateTableEntryInternal, hbind]
  · refine .inl ⟨?_, by simp [next, createTable, hreplace, hnone, hingest]⟩
    rintro ⟨-, -, ha, hr⟩
    exact hfails ⟨ha, hr⟩

/-- What holds whether or not the flag is right. -/
structure Sound (w : World) : Prop where
  reflects : Reflects w.remote w.entry
  noClash : w.remote.NoClash

theorem Sound.next {w : World} (h : Sound w) {op : Operation} (hop : Admissible noSchemas w op) :
    Sound (next noSchemas w op) := by
  refine ⟨?_, hop.2⟩
  cases op with
  | query q => exact q.reflects h.reflects
  | clearCache => exact reflects_new _ _
  | createTable info accepts message =>
    rcases createTable_cases noSchemas w info accepts message with
      ⟨_, he⟩ | ⟨_, R', hcreate, he⟩
    · rw [he]
      exact h.reflects
    · rw [he]
      exact (h.reflects.create hcreate).insert (RemoteSchema.resolve_created hcreate) true

/-- A sound cache that knows every table answers like the remote. -/
theorem Sound.answers {w : World} (h : Sound w) (hk : Knows w.entry w.remote.names) :
    Answers noSchemas w where
  complete := hk
  lookup _ hn := hk.lookupEntry_isSome_iff (h.reflects.resolve_isSome hn)
  scan listing hl := by
    obtain ⟨s', hs', hall, he⟩ :=
      hk.scan_entries noSchemas h.reflects (fun _ => resolve_isSome_of_mem) hl
    exact ⟨s'.entries, he, entries_perm h.noClash hs' hall⟩

/-- **One call.**  The cache goes on answering like the remote unless it is a
`CREATE TABLE` next to a table that is not cached. -/
theorem answers_next_iff {w : World} (h : Sound w) {op : Operation}
    (hop : Admissible noSchemas w op) (hw : Answers noSchemas w) :
    Answers noSchemas (next noSchemas w op) ↔ CreatesKnowingAll w op := by
  have hknows : Answers noSchemas (next noSchemas w op) ↔
      Knows (next noSchemas w op).entry (next noSchemas w op).remote.names :=
    ⟨Answers.complete, (h.next hop).answers⟩
  rw [hknows]
  cases op with
  | query q =>
    exact iff_of_true (q.knows (fun _ => resolve_isSome_of_mem) (hop.1 q rfl) hw.complete) trivial
  | clearCache => exact iff_of_true (knows_new _ _) trivial
  | createTable info accepts message =>
    rcases createTable_cases noSchemas w info accepts message with
      ⟨hno, he⟩ | ⟨hyes, R', hcreate, he⟩
    · rw [he]
      exact iff_of_true hw.complete (fun hyes => absurd hyes hno)
    · obtain ⟨hr, -, htables⟩ := RemoteSchema.create_cases hcreate
      have hne : ∀ n ∈ w.remote.names, lower n ≠ lower info.table.name := by
        -- by `NoClash` the new name is apart from the others
        intro n hn heq
        obtain ⟨t, ht, rfl⟩ := List.mem_map.mp hn
        have hclash := hop.2
        rw [he] at hclash
        have htt : t = info.table := hclash.eq_of_lower (by simp [htables, ht])
          (by simp [htables]) heq
        rw [← htt, RemoteSchema.resolve_name ht] at hr
        cases hr
      rw [he]
      simp only [CreatesKnowingAll, hyes, Knows, RemoteSchema.mem_names_create hcreate,
        AList.mem_insert, true_implies]
      constructor
      · intro hall n hn
        exact (hall n (.inl hn)).resolve_left (hne n hn)
      · rintro hall n (hn | rfl)
        · exact .inr (hall n hn)
        · exact .inl rfl

/-! ### Other spellings -/

/-- The names of the cached tables are theirs in every spelling. -/
def CachedAnyCase (w : World) : Prop :=
  ∀ n, lower n ∈ w.entry.ownedTables → w.remote.AnyCase n

theorem Sound.answersAnyCase_iff {w : World} (h : Sound w) :
    AnswersAnyCase noSchemas w ↔ Answers noSchemas w ∧ CachedAnyCase w := by
  constructor
  · refine fun hw => ⟨hw.toAnswers, fun n hn m hl => ?_⟩
    -- both spellings are found, so both have a table, and the two are one
    have hfound : ∀ k, lower k = lower n → (w.remote.resolve k).isSome := fun k hk =>
      (hw.lookupAnyCase k).mp (AdbcSchemaEntry.lookupEntry_isSome_iff.mpr (.inl (hk ▸ hn)))
    obtain ⟨t, ht⟩ := Option.isSome_iff_exists.mp (hfound m hl)
    obtain ⟨u, hu⟩ := Option.isSome_iff_exists.mp (hfound n rfl)
    have htu : t = u := h.noClash.eq_of_lower (RemoteSchema.mem_of_resolve ht)
      (RemoteSchema.mem_of_resolve hu)
      ((RemoteSchema.lower_resolve ht).trans (hl.trans (RemoteSchema.lower_resolve hu).symm))
    subst htu
    exact RemoteSchema.sameName_of_resolve_eq ht hu
  · rintro ⟨hw, hcached⟩
    refine ⟨hw, fun n => hw.complete.lookupEntry_isSome_iff fun hk => ?_⟩
    exact h.reflects.resolve_isSome (hcached n hk).unambiguous hk

theorem cachedAnyCase_next_iff {w : World} (hw : CachedAnyCase w) (op : Operation) :
    CachedAnyCase (next noSchemas w op) ↔ CachesAnyCase w op := by
  cases op with
  | clearCache => exact iff_of_true (fun n hn => by simp [next, AdbcSchemaEntry.new] at hn) trivial
  | query q =>
    constructor
    · intro h hloaded n hn hr
      exact h n (q.mem_next.mpr (.inr ⟨hloaded, n, hn, rfl, RemoteSchema.bind_isSome_iff.mpr hr⟩))
    · intro h m hm
      rcases q.mem_next.mp hm with hm | ⟨hloaded, n, hn, hl, hb⟩
      · exact hw m hm
      · exact (h hloaded n hn (RemoteSchema.bind_isSome_iff.mp hb)).congr hl
  | createTable info accepts message =>
    rcases createTable_cases noSchemas w info accepts message with
      ⟨hno, he⟩ | ⟨hyes, R', hcreate, he⟩
    · rw [he]
      exact iff_of_true hw fun hyes => absurd hyes hno
    · obtain ⟨-, hcs, -⟩ := RemoteSchema.create_cases hcreate
      -- the new remote compares names like the old one
      have hcase : ∀ n, R'.AnyCase n ↔ w.remote.AnyCase n := fun n => by
        rw [RemoteSchema.AnyCase, RemoteSchema.AnyCase, hcs]
      rw [he]
      constructor
      · intro h _
        exact (hcase _).mp (h info.table.name (AList.mem_insert _ |>.mpr (.inl rfl)))
      · intro h n hn
        rcases (AList.mem_insert _).mp hn with hl | hn
        · exact (hcase n).mpr ((h hyes).congr hl)
        · exact (hcase n).mpr (hw n hn)

/-- **When the cache answers like the remote throughout a run.**  For names that no table's differs
from in nothing but case, it does if and only if every table is created while the cache holds all
the others of the remote.  For all names it does if and only if, besides, no table is cached that
the remote has for one spelling of its name only. -/
theorem tables_complete_iff (noSchemas : Bool) (name : String) (R : RemoteSchema)
    (hR : R.NoClash) (ops : List Operation)
    (hops : Meets (next noSchemas) (Admissible noSchemas) ⟨.new name, R⟩ ops) :
    (Visits (next noSchemas) (Answers noSchemas) ⟨.new name, R⟩ ops ↔
      Meets (next noSchemas) CreatesKnowingAll ⟨.new name, R⟩ ops) ∧
    (Visits (next noSchemas) (AnswersAnyCase noSchemas) ⟨.new name, R⟩ ops ↔
      Meets (next noSchemas) (fun w op => CreatesKnowingAll w op ∧ CachesAnyCase w op)
        ⟨.new name, R⟩ ops) := by
  have hsound : Sound ⟨.new name, R⟩ := ⟨reflects_new R name, hR⟩
  have hanswers : Answers noSchemas ⟨.new name, R⟩ := hsound.answers (knows_new _ _)
  constructor
  · exact visits_iff_meets (I := Sound) (fun w op h hop => h.next hop)
      (fun w op h hop hw => answers_next_iff h hop hw) hsound hanswers hops
  · refine visits_iff_meets (I := Sound) (fun w op h hop => h.next hop)
      (fun w op h hop hw => ?_) hsound ?_ hops
    · obtain ⟨hw, hcached⟩ := h.answersAnyCase_iff.mp hw
      rw [(h.next hop).answersAnyCase_iff, answers_next_iff h hop hw,
        cachedAnyCase_next_iff hcached]
    · exact hsound.answersAnyCase_iff.mpr
        ⟨hanswers, fun n hn => by simp [AdbcSchemaEntry.new] at hn⟩

/-- A remote schema with one table, `a`, which compares names without regard to case. -/
def oneTable : RemoteSchema := ⟨false, [⟨"a", []⟩], List.pairwise_singleton _ _⟩

/-- `CREATE TABLE b`. -/
def createB : Operation := .createTable ⟨"main", ⟨"b", []⟩, .errorOnConflict⟩ true ""

/-- `CREATE TABLE b` in a cache that a scan has filled: both tables are found, in any spelling. -/
theorem tables_complete_after_scan :
    Visits (next false) (AnswersAnyCase false) ⟨.new "main", oneTable⟩
      [.query (.scan ["a"]), createB] := by
  have hops : Meets (next false) (Admissible false) ⟨.new "main", oneTable⟩
      [.query (.scan ["a"]), createB] := by
    refine ⟨⟨?_, by decide⟩, ⟨(fun q hq => by cases hq), by decide⟩, trivial⟩
    intro q hq
    obtain rfl := Operation.query.inj hq
    exact List.Perm.refl _
  have hcase : ∀ n, oneTable.AnyCase n := RemoteSchema.anyCase_of_caseInsensitive rfl
  refine (tables_complete_iff false "main" oneTable (by decide) _ hops).2.mpr
    ⟨⟨trivial, fun _ n _ _ => hcase n⟩, ⟨fun _ => by decide, fun _ => hcase "b"⟩, trivial⟩

/-- After `CREATE TABLE b` in a fresh cache, the tables count as loaded, and the table `a` that was
there before is not found. -/
theorem create_hides_existing :
    Meets (next false) (Admissible false) ⟨.new "main", oneTable⟩ [createB] ∧
      ¬ Visits (next false) (Answers false) ⟨.new "main", oneTable⟩ [createB] := by
  refine ⟨⟨⟨(fun q hq => by cases hq), by decide⟩, trivial⟩, ?_⟩
  rintro ⟨-, hv⟩
  have hfound := (hv.lookup "a" (by decide)).mpr (by decide)
  revert hfound
  decide

end TableCache

/-! ## Histories -/

namespace TableHistory

/-- The cache after a history of queries on an unchanged remote. -/
def after (noSchemas : Bool) (R : RemoteSchema) (name : String) (history : List Query) :
    AdbcSchemaEntry :=
  run (Query.next noSchemas R) (.new name) history

/-- The answer to a lookup after a history: nothing, or an entry, for which we take
the table that it reads. -/
def answer (noSchemas : Bool) (R : RemoteSchema) (name : String) (history : List Query)
    (n : String) : Option (Option RemoteTable) :=
  ((after noSchemas R name history).lookupEntry R.bind n).1.map (fun e => R.resolve e.name)

/-- Every metadata request of the history succeeds. -/
def Admissible (R : RemoteSchema) (history : List Query) : Prop :=
  ∀ q ∈ history, q.Admissible R

variable {noSchemas : Bool} {R : RemoteSchema} {name : String}

/-- The cache is sound and complete after every history. -/
theorem after_sound (noSchemas : Bool) (name : String) {history : List Query}
    (h : Admissible R history) :
    Reflects R (after noSchemas R name history) ∧
      Knows (after noSchemas R name history) R.names := by
  refine run_invariant (I := fun s => Reflects R s ∧ Knows s R.names) (Query.next noSchemas R)
    (fun s q hq hs => ⟨q.reflects hs.1, ?_⟩) ⟨reflects_new R name, knows_new name _⟩
  exact q.knows (fun _ => resolve_isSome_of_mem) (h q hq) hs.2

/-- **An unambiguous name is answered as the remote would**, after every history. -/
theorem answer_eq {history : List Query} (h : Admissible R history) {n : String}
    (hn : R.Unambiguous n) :
    answer noSchemas R name history n = (R.resolve n).map some := by
  obtain ⟨hs, hk⟩ := after_sound noSchemas name h
  have hfound := hk.lookupEntry_isSome_iff (hs.resolve_isSome hn)
  rw [answer]
  cases hl : ((after noSchemas R name history).lookupEntry R.bind n).1 with
  | none =>
    rw [hl] at hfound
    rw [Option.not_isSome_iff_eq_none.mp (fun hr => Bool.noConfusion (hfound.mpr hr))]
    rfl
  | some e =>
    have hs' : Reflects R ((after noSchemas R name history).lookupEntry R.bind n).2 := hs.internal n
    rw [Option.map_some, hs'.resolve_eq (lookup_of_lookupEntry hl) hn]
    rw [hl] at hfound
    obtain ⟨t, ht⟩ := Option.isSome_iff_exists.mp (hfound.mp rfl)
    rw [ht, Option.map_some]

/-- A fresh cache gives the answer of the remote. -/
theorem answer_fresh (n : String) : answer noSchemas R name [] n = (R.resolve n).map some := by
  show ((new name).getOrCreateTableEntryInternal R.bind n).1.map (fun e => R.resolve e.name) = _
  rw [internal_new, RemoteSchema.bind]
  cases hr : R.resolve n with
  | none => rfl
  | some t =>
    simp only [Option.map_some]
    rw [hr]

/-- A lookup of another spelling fills the slot of the name. -/
theorem answer_after_lookup {m n : String} {t : RemoteTable} (hm : R.resolve m = some t)
    (hl : lower m = lower n) : answer noSchemas R name [.lookupEntry m] n = some (some t) := by
  have hcached : ((new name).getOrCreateTableEntryInternal R.bind m).2.ownedTables.lookup
      (lower n) = some ⟨m, t.columns⟩ := by
    rw [internal_new, RemoteSchema.bind, hm, ← hl]
    exact AList.lookup_insert _
  show (((new name).getOrCreateTableEntryInternal R.bind m).2.getOrCreateTableEntryInternal
    R.bind n).1.map (fun e => R.resolve e.name) = _
  rw [getOrCreateTableEntryInternal, hcached, Option.map_some, hm]

/-- **When the answer for a name does not depend on history.**  After any two histories the lookup
of a name gives the same answer, and a table of that name is always found, if and only if the remote
itself takes every listed name that differs from it in nothing but case for the same name. -/
theorem lookup_history_free_iff (noSchemas : Bool) (R : RemoteSchema) (name n : String) :
    ((∀ h₁ h₂, Admissible R h₁ → Admissible R h₂ →
        answer noSchemas R name h₁ n = answer noSchemas R name h₂ n) ∧
      ∀ t ∈ R.tables, t.name = n → ∀ h, Admissible R h →
        answer noSchemas R name h n = some (some t)) ↔
      ∀ m ∈ R.names, lower m = lower n → sameName R.caseSensitive m n = true := by
  constructor
  · rintro ⟨hfree, -⟩ m hm hl
    obtain ⟨t, ht⟩ := Option.isSome_iff_exists.mp (resolve_isSome_of_mem hm)
    have hother := hfree [.lookupEntry m] []
      (fun q hq => by rw [List.mem_singleton.mp hq]; trivial) (fun q hq => by simp at hq)
    rw [answer_after_lookup ht hl, answer_fresh] at hother
    obtain ⟨u, hu, he⟩ := Option.map_eq_some_iff.mp hother.symm
    obtain rfl := Option.some.inj he
    exact RemoteSchema.sameName_of_resolve_eq ht hu
  · intro hn
    refine ⟨fun h₁ h₂ ha₁ ha₂ => ?_, ?_⟩
    · rw [answer_eq ha₁ hn, answer_eq ha₂ hn]
    · rintro t ht rfl h ha
      rw [answer_eq ha hn, RemoteSchema.resolve_name ht, Option.map_some]

/-- A case-sensitive remote with a table `Foo` only: `foo` is not found in a fresh
cache, and is found after a scan. -/
theorem scan_changes_answer :
    answer false ⟨true, [⟨"Foo", []⟩], List.pairwise_singleton _ _⟩ "main" [] "foo" ≠
      answer false ⟨true, [⟨"Foo", []⟩], List.pairwise_singleton _ _⟩ "main"
        [.scan ["Foo"]] "foo" := by
  decide

end TableHistory

end AdbcClient
