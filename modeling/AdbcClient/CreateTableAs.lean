import AdbcClient.PhysicalPlan
import AdbcClient.TableCache

/-!
# CREATE TABLE AS

A `CREATE TABLE AS` reaches the catalog twice.  When it is planned,
`PlanCreateTableAs` clears `tables_loaded`, so that the table will be looked for at
the remote; when it is executed, `AdbcInsert::GetGlobalSinkState` creates the table
there (`adbc_insert.cpp`).  Between the two, and around them, other statements look
tables up and scan the schema.

A table created while the flag is set stays invisible, since nothing clears the flag
at that point; `ctas_visible_iff` says this is the only way, unless the remote has
another table whose name differs from the new one's in nothing but case: the cache has
one entry for the two.
-/
namespace AdbcClient
open Runs AdbcSchemaEntry

/-- The table that an `AdbcInsert` writes to at the remote, with its columns. -/
def AdbcInsert.table (insert : AdbcInsert) : RemoteTable where
  name := insert.tableName
  columns := List.zipWith ColumnDefinition.mk insert.columnNames insert.columnTypes

/-- The effect of `GetGlobalSinkState` on the remote. -/
def getGlobalSinkState (ingest : Ingest) (insert : AdbcInsert) (remote : RemoteSchema) :
    Except String RemoteSchema :=
  match insert.insertMode with
  | .ctas => ingest remote insert.schemaName insert.table
  | .append => .ok remote

namespace CreateTableAs

/-- The cache of a schema, the schema at the remote, and the tables that executed
statements have created in it. -/
structure World where
  entry : AdbcSchemaEntry
  remote : RemoteSchema
  created : List String

/-- Queries, and the two steps of any number of statements. -/
inductive Operation where
  | query (query : Query)
  | plan (canMixReadsWrites : Bool) (info : CreateTableInfo) (plan : PhysicalOperator)
  | execute (insert : AdbcInsert) (accepts : Bool) (message : String)

/-- The text in which an entry puts the name of its table reads the remote table `t`. -/
def Reads (R : RemoteSchema) (e : AdbcTableEntry) (t : String) : Prop :=
  R.resolve e.name = R.resolve t

/-- An entry is the one of a table: the catalog takes their names for one and, if no
other table's name differs in case only, it reads this table. -/
def StandsFor (R : RemoteSchema) (e : AdbcTableEntry) (t : String) : Prop :=
  lower e.name = lower t ∧ (R.Unambiguous t → Reads R e t)

variable (noSchemas : Bool)

/-- What a step does to the cache of the schema and to the remote. -/
def next (w : World) : Operation → World
  | .query q => { w with entry := q.next noSchemas w.remote w.entry }
  | .plan canMix info plan =>
    { w with entry := (planCreateTableAs canMix noSchemas info plan w.entry).2 }
  | .execute insert accepts message =>
    match getGlobalSinkState (ingest accepts message) insert w.remote with
    | .error _ => w
    | .ok remote =>
      { w with
        remote := remote
        created := if insert.insertMode = .ctas then insert.tableName :: w.created
          else w.created }

/-- Metadata requests succeed, and list the tables that the remote has then. -/
def Admissible (w : World) (op : Operation) : Prop :=
  ∀ q, op = .query q → q.Admissible w.remote

/-- **The created tables are visible**, each through an entry that `Shows` it. -/
structure Visible (Shows : RemoteSchema → AdbcTableEntry → String → Prop) (w : World) :
    Prop where
  lookup : ∀ t ∈ w.created,
    ∃ e, (w.entry.lookupEntry w.remote.bind t).1 = some e ∧ Shows w.remote e t
  scan : ∀ t ∈ w.created, ∀ listing, listing.Perm w.remote.names → ∃ entries,
    (w.entry.scan noSchemas .tableEntry (fun _ => .ok listing) w.remote.bind).1 = .ok entries ∧
      ∃ e ∈ entries, Shows w.remote e t

/-- An execution creates its table: the table is new at the remote, and the driver accepts it. -/
def Creates (w : World) (insert : AdbcInsert) (accepts : Bool) : Prop :=
  insert.insertMode = .ctas ∧ accepts = true ∧ w.remote.resolve insert.tableName = none

/-- A table is created only while the flag is clear, or its name is cached already
(for a table whose name differs in case). -/
def CreatesUnloaded (w : World) : Operation → Prop
  | .execute insert accepts _ => Creates w insert accepts →
      w.entry.tablesLoaded = false ∨ lower insert.tableName ∈ w.entry.ownedTables
  | _ => True

/-- A table is created only while the flag is clear, and only under a name that no table
has up to case. -/
def CreatesApart (w : World) : Operation → Prop
  | .execute insert accepts _ => Creates w insert accepts →
      w.entry.tablesLoaded = false ∧ ∀ m ∈ w.remote.names, lower m ≠ lower insert.tableName
  | _ => True

variable {noSchemas}

/-- **What an execution can do**: leave the tables alone, or create one. -/
theorem execute_cases (noSchemas : Bool) (w : World) (insert : AdbcInsert) (accepts : Bool)
    (message : String) :
    (¬ Creates w insert accepts ∧ next noSchemas w (.execute insert accepts message) = w) ∨
    (Creates w insert accepts ∧ ∃ R', w.remote.create insert.table = some R' ∧
      next noSchemas w (.execute insert accepts message) =
        ⟨w.entry, R', insert.tableName :: w.created⟩) := by
  obtain ⟨s, R, created⟩ := w
  cases hmode : insert.insertMode with
  | append =>
    refine .inl ⟨fun h => ?_, by simp [next, getGlobalSinkState, hmode]⟩
    rw [h.1] at hmode
    cases hmode
  | ctas =>
    rcases ingest_cases accepts message R insert.schemaName insert.table with
      ⟨R', ha, hcreate, hingest⟩ | ⟨hfails, hingest⟩
    · obtain ⟨hr, -, -⟩ := RemoteSchema.create_cases hcreate
      refine .inr ⟨⟨hmode, ha, hr⟩, R', hcreate, ?_⟩
      simp [next, getGlobalSinkState, hmode, hingest]
    · refine .inl ⟨?_, by simp [next, getGlobalSinkState, hmode, hingest]⟩
      rintro ⟨-, ha, hr⟩
      exact hfails ⟨ha, hr⟩

theorem plan_entry (noSchemas canMix : Bool) (info : CreateTableInfo) (plan : PhysicalOperator)
    (s : AdbcSchemaEntry) :
    (planCreateTableAs canMix noSchemas info plan s).2 = s ∨
      (planCreateTableAs canMix noSchemas info plan s).2 = s.lazyLoadNewTables := by
  rw [planCreateTableAs]
  split
  · exact .inl rfl
  · split
    · exact .inl rfl
    · exact .inr rfl

/-- What holds whether or not the flag is right. -/
structure Sound (w : World) : Prop where
  reflects : Reflects w.remote w.entry
  exist : ∀ t ∈ w.created, (w.remote.resolve t).isSome

theorem Sound.next {w : World} (h : Sound w) (op : Operation) : Sound (next noSchemas w op) := by
  cases op with
  | query q => exact ⟨q.reflects h.reflects, h.exist⟩
  | plan canMix info plan =>
    refine ⟨?_, h.exist⟩
    show Reflects w.remote (planCreateTableAs canMix noSchemas info plan w.entry).2
    rcases plan_entry noSchemas canMix info plan w.entry with he | he
    · rw [he]
      exact h.reflects
    · rw [he]
      exact h.reflects.setLoaded false
  | execute insert accepts message =>
    rcases execute_cases noSchemas w insert accepts message with
      ⟨_, he⟩ | ⟨_, R', hcreate, he⟩
    · rw [he]
      exact h
    · rw [he]
      refine ⟨h.reflects.create hcreate, fun t ht => ?_⟩
      rcases List.mem_cons.mp ht with rfl | ht
      · have hnew := RemoteSchema.resolve_created hcreate
        exact Option.isSome_iff_exists.mpr ⟨_, hnew⟩
      · obtain ⟨u, hu⟩ := Option.isSome_iff_exists.mp (h.exist t ht)
        exact Option.isSome_iff_exists.mpr ⟨u, RemoteSchema.resolve_create hcreate hu⟩

/-- An entry filed under a table's name stands for it. -/
theorem standsFor {R : RemoteSchema} {s : AdbcSchemaEntry} (hs : Reflects R s) {t : String}
    {e : AdbcTableEntry} (he : s.ownedTables.lookup (lower t) = some e) : StandsFor R e t :=
  ⟨(hs _ e he).1.symm, hs.resolve_eq he⟩

/-- **Visible is known**: the created tables are seen exactly if the flag does not
deny them. -/
theorem visible_iff {w : World} (h : Sound w) :
    Visible noSchemas StandsFor w ↔ Knows w.entry w.created := by
  constructor
  · intro hv hloaded t ht
    obtain ⟨e, he, -⟩ := hv.lookup t ht
    have hfound : (w.entry.lookupEntry w.remote.bind t).1.isSome := by rw [he]; rfl
    rcases lookupEntry_isSome_iff.mp hfound with hk | ⟨hf, -⟩
    · exact hk
    · rw [hloaded] at hf
      cases hf
  · intro hk
    refine ⟨fun t ht => ?_, fun t ht listing hl => ?_⟩
    · obtain ⟨e, he⟩ := Option.isSome_iff_exists.mp (hk.lookupEntry_isSome ht rfl (h.exist t ht))
      have hs : Reflects w.remote (w.entry.lookupEntry w.remote.bind t).2 := h.reflects.internal t
      exact ⟨e, he, standsFor hs (lookup_of_lookupEntry he)⟩
    · obtain ⟨s', hs', hall, he⟩ := hk.scan_entries noSchemas h.reflects h.exist hl
      obtain ⟨e, hcached⟩ := exists_entry (hall t ht)
      exact ⟨s'.entries, he, e, mem_entries.mpr ⟨_, hcached⟩, standsFor hs' hcached⟩

/-- **One step** keeps the created tables visible exactly if a table that it creates is created as
the condition says. -/
theorem visible_next_iff {w : World} (h : Sound w) {op : Operation} (hop : Admissible w op)
    (hw : Visible noSchemas StandsFor w) :
    Visible noSchemas StandsFor (next noSchemas w op) ↔ CreatesUnloaded w op := by
  rw [visible_iff (h.next op)]
  have hk := (visible_iff h).mp hw
  cases op with
  | query q => exact iff_of_true (q.knows h.exist (hop q rfl) hk) trivial
  | plan canMix info plan =>
    refine iff_of_true ?_ trivial
    rcases plan_entry noSchemas canMix info plan w.entry with he | he
    · simpa only [next, he] using hk
    · simp only [next, he]
      exact fun hf => Bool.noConfusion hf
  | execute insert accepts message =>
    rcases execute_cases noSchemas w insert accepts message with
      ⟨hno, he⟩ | ⟨hyes, R', _, he⟩
    · rw [he]
      exact iff_of_true hk (fun hyes => absurd hyes hno)
    · rw [he]
      simp only [CreatesUnloaded, hyes, Knows, List.mem_cons, forall_eq_or_imp, true_implies]
      constructor
      · intro hall
        cases hloaded : w.entry.tablesLoaded with
        | false => exact .inl rfl
        | true => exact .inr (hall hloaded).1
      · rintro (hf | hcached) hloaded
        · rw [hloaded] at hf
          cases hf
        · exact ⟨hcached, hk hloaded⟩

/-! ## Entries that read the created table itself -/

/-- A created table's entry is its own: the one that is cached, and the one that will
be. -/
def Own (w : World) : Prop :=
  ∀ t ∈ w.created,
    (∀ e, w.entry.ownedTables.lookup (lower t) = some e → Reads w.remote e t) ∧
      (lower t ∉ w.entry.ownedTables → w.remote.Unambiguous t)

/-- An entry that reads an existing table is filed under its name. -/
theorem Reads.lower_eq {R : RemoteSchema} {e : AdbcTableEntry} {t : String} (h : Reads R e t)
    (ht : (R.resolve t).isSome) : lower e.name = lower t := by
  obtain ⟨u, hu⟩ := Option.isSome_iff_exists.mp ht
  exact (RemoteSchema.lower_resolve (h.trans hu)).symm.trans (RemoteSchema.lower_resolve hu)

/-- A scan files a table that comes first in the listing. -/
theorem first_listed (noSchemas : Bool) {R : RemoteSchema} {s : AdbcSchemaEntry}
    (hloaded : s.tablesLoaded = false) {m : String} {columns : List ColumnDefinition}
    (hb : R.bind m = some columns) (hm : lower m ∉ s.ownedTables) (listing : List String) :
    (Query.next noSchemas R s (.scan (m :: listing))).ownedTables.lookup (lower m) =
      some ⟨m, columns⟩ := by
  have hfirst : (s.getOrCreateTableEntryInternal R.bind m).2.ownedTables.lookup (lower m) =
      some ⟨m, columns⟩ := by
    rw [getOrCreateTableEntryInternal, AList.lookup_eq_none.mpr hm, hloaded, hb]
    exact AList.lookup_insert _
  rcases scan_listed_cases noSchemas (m :: listing) R.bind s with ⟨ht, _⟩ | ⟨_, he⟩
  · rw [hloaded] at ht
    cases ht
  · rw [Query.next, he]
    exact lookup_loadTables hfirst listing

/-- A table whose entry is yet to come, and which every scan shows, is alone with its
name. -/
theorem Visible.unambiguous {w : World} (h : Sound w) (hv : Visible noSchemas Reads w) {t : String}
    (ht : t ∈ w.created) (hcached : lower t ∉ w.entry.ownedTables) : w.remote.Unambiguous t := by
  intro m hm hl
  have hloaded : w.entry.tablesLoaded = false := by
    obtain ⟨e, he, -⟩ := hv.lookup t ht
    have hfound : (w.entry.lookupEntry w.remote.bind t).1.isSome := by rw [he]; rfl
    exact ((lookupEntry_isSome_iff.mp hfound).resolve_left hcached).1
  obtain ⟨columns, hb⟩ := Option.isSome_iff_exists.mp
    (RemoteSchema.bind_isSome_iff.mpr (resolve_isSome_of_mem hm))
  -- a listing that has the other name first
  have hslot := first_listed noSchemas hloaded hb (hl ▸ hcached)
    (w.remote.names.erase m)
  obtain ⟨entries, hscan, e, he, hreads⟩ := hv.scan t ht _ (List.perm_cons_erase hm).symm
  rw [(Query.scan_next ..).1] at hscan
  obtain rfl := Except.ok.inj hscan
  obtain ⟨k, hk⟩ := mem_entries.mp he
  obtain ⟨hkey, -⟩ := Query.reflects h.reflects (.scan _) k e hk
  rw [hkey, hreads.lower_eq (h.exist t ht), ← hl, hslot] at hk
  obtain rfl := Option.some.inj hk
  obtain ⟨u, hu⟩ := Option.isSome_iff_exists.mp (h.exist t ht)
  exact RemoteSchema.sameName_of_resolve_eq (hreads.trans hu) hu

theorem visible_reads_iff {w : World} (h : Sound w) :
    Visible noSchemas Reads w ↔ Visible noSchemas StandsFor w ∧ Own w := by
  constructor
  · intro hv
    have hstands : ∀ t ∈ w.created, ∀ e, Reads w.remote e t → StandsFor w.remote e t :=
      fun t ht e hreads => ⟨hreads.lower_eq (h.exist t ht), fun _ => hreads⟩
    refine ⟨⟨fun t ht => ?_, fun t ht listing hl => ?_⟩, fun t ht => ⟨fun e he => ?_, ?_⟩⟩
    · obtain ⟨e, he, hreads⟩ := hv.lookup t ht
      exact ⟨e, he, hstands t ht e hreads⟩
    · obtain ⟨entries, hscan, e, he, hreads⟩ := hv.scan t ht listing hl
      exact ⟨entries, hscan, e, he, hstands t ht e hreads⟩
    · obtain ⟨e', he', hreads⟩ := hv.lookup t ht
      rw [lookupEntry_cached he] at he'
      obtain rfl := Option.some.inj he'
      exact hreads
    · exact hv.unambiguous h ht
  · rintro ⟨hv, hown⟩
    refine ⟨fun t ht => ?_, fun t ht listing hl => ?_⟩
    · obtain ⟨e, he, hstands⟩ := hv.lookup t ht
      refine ⟨e, he, ?_⟩
      by_cases hcached : lower t ∈ w.entry.ownedTables
      · obtain ⟨e', he'⟩ := exists_entry hcached
        rw [lookupEntry_cached he'] at he
        obtain rfl := Option.some.inj he
        exact (hown t ht).1 _ he'
      · exact hstands.2 ((hown t ht).2 hcached)
    · by_cases hcached : lower t ∈ w.entry.ownedTables
      · obtain ⟨e, he⟩ := exists_entry hcached
        exact ⟨_, (Query.scan_next ..).1, e,
          mem_entries.mpr ⟨_, Query.lookup_next (.scan listing) he⟩, (hown t ht).1 e he⟩
      · obtain ⟨entries, hscan, e, he, hstands⟩ := hv.scan t ht listing hl
        exact ⟨entries, hscan, e, he, hstands.2 ((hown t ht).2 hcached)⟩

/-- A query leaves each created table its own entry. -/
theorem Own.query {w : World} (h : Own w) (hs : Sound w) (q : Query) :
    Own { w with entry := q.next noSchemas w.remote w.entry } := by
  intro t ht
  refine ⟨fun e he => ?_, fun hn => (h t ht).2 fun hk => hn (q.mem_next.mpr (.inl hk))⟩
  by_cases hcached : lower t ∈ w.entry.ownedTables
  · obtain ⟨e', he'⟩ := exists_entry hcached
    obtain rfl := Option.some.inj ((q.lookup_next he').symm.trans he)
    exact (h t ht).1 _ he'
  · exact (q.reflects hs.reflects).resolve_eq he ((h t ht).2 hcached)

/-- A name that no table has up to case is not cached. -/
theorem Sound.not_cached {w : World} (h : Sound w) {n : String}
    (hapart : ∀ m ∈ w.remote.names, lower m ≠ lower n) : lower n ∉ w.entry.ownedTables := by
  intro hk
  obtain ⟨e, he⟩ := exists_entry hk
  obtain ⟨hkey, u, hu, -⟩ := h.reflects _ e he
  exact hapart u.name (RemoteSchema.mem_names (RemoteSchema.mem_of_resolve hu))
    ((RemoteSchema.lower_resolve hu).trans hkey.symm)

/-- **One creation.**  The new table has its own entry exactly if no table has its name up
to case, and then the others keep theirs. -/
theorem own_create_iff {w : World} (h : Sound w) (hown : Own w) {t : RemoteTable}
    {R' : RemoteSchema} (hcreate : w.remote.create t = some R') :
    Own ⟨w.entry, R', t.name :: w.created⟩ ↔
      ∀ m ∈ w.remote.names, lower m ≠ lower t.name := by
  obtain ⟨hnew, hcs, -⟩ := RemoteSchema.create_cases hcreate
  constructor
  · intro hown' m hm hl
    obtain ⟨hreads, hunambiguous⟩ := hown' t.name List.mem_cons_self
    have hcached : lower t.name ∉ w.entry.ownedTables := by
      -- an entry that is cached under the new name reads another table
      intro hk
      obtain ⟨e, he⟩ := exists_entry hk
      obtain ⟨-, u, hu, -⟩ := h.reflects _ e he
      obtain rfl := Option.some.inj ((RemoteSchema.resolve_create hcreate hu).symm.trans
        ((hreads e he).trans (RemoteSchema.resolve_created hcreate)))
      rw [RemoteSchema.resolve_name (RemoteSchema.mem_of_resolve hu)] at hnew
      cases hnew
    -- the remote does not take `m` for the new name, or the table would exist
    have hsame := hunambiguous hcached m ((RemoteSchema.mem_names_create hcreate).mpr (.inl hm)) hl
    rw [hcs] at hsame
    have hsome := RemoteSchema.resolve_isSome_iff.mpr ⟨m, hm, hsame⟩
    rw [hnew] at hsome
    cases hsome
  · intro hapart n hn
    rcases List.mem_cons.mp hn with rfl | hn
    · refine ⟨fun e he => absurd (mem_of_lookup he) (h.not_cached hapart), fun _ m hm hl => ?_⟩
      rcases (RemoteSchema.mem_names_create hcreate).mp hm with hm | rfl
      · exact absurd hl (hapart m hm)
      · exact sameName_refl _ _
    · obtain ⟨u, hu⟩ := Option.isSome_iff_exists.mp (h.exist n hn)
      refine ⟨fun e he => ?_, fun hk m hm hl => ?_⟩
      · have hreads := (hown n hn).1 e he
        have hread : R'.resolve e.name = some u :=
          RemoteSchema.resolve_create hcreate (hreads.trans hu)
        exact hread.trans (RemoteSchema.resolve_create hcreate hu).symm
      · rcases (RemoteSchema.mem_names_create hcreate).mp hm with hm | rfl
        · rw [hcs]
          exact (hown n hn).2 hk m hm hl
        · -- `n` exists, so the new name is not another spelling of it
          rw [← RemoteSchema.lower_resolve hu] at hl
          exact absurd hl.symm
            (hapart u.name (RemoteSchema.mem_names (RemoteSchema.mem_of_resolve hu)))

theorem visible_reads_next_iff {w : World} (h : Sound w) {op : Operation} (hop : Admissible w op)
    (hw : Visible noSchemas Reads w) :
    Visible noSchemas Reads (next noSchemas w op) ↔ CreatesApart w op := by
  obtain ⟨hv, hown⟩ := (visible_reads_iff h).mp hw
  rw [visible_reads_iff (h.next op), visible_next_iff h hop hv]
  cases op with
  | query q => exact iff_of_true ⟨trivial, hown.query h q⟩ trivial
  | plan canMix info plan =>
    refine iff_of_true ⟨trivial, ?_⟩ trivial
    rcases plan_entry noSchemas canMix info plan w.entry with he | he
    · simpa only [next, he] using hown
    · simp only [next, he]
      exact hown
  | execute insert accepts message =>
    rcases execute_cases noSchemas w insert accepts message with
      ⟨hno, he⟩ | ⟨hyes, R', hcreate, he⟩
    · rw [he]
      exact iff_of_true ⟨fun hyes => absurd hyes hno, hown⟩ (fun hyes => absurd hyes hno)
    · rw [he]
      simp only [CreatesUnloaded, CreatesApart, hyes, true_implies]
      constructor
      · rintro ⟨hunloaded, hown'⟩
        have hapart := (own_create_iff h hown hcreate).mp hown'
        exact ⟨hunloaded.resolve_right (h.not_cached hapart), hapart⟩
      · rintro ⟨hloaded, hapart⟩
        exact ⟨.inl hloaded, (own_create_iff h hown hcreate).mpr hapart⟩

/-- **When the tables of `CREATE TABLE AS` are visible throughout a run.**  Every created table is
found, by lookups and by scans, through an entry that stands for it if and only if tables are
created only while they do not count as loaded, or under a name that is cached already.  It is found
through an entry that reads it, whatever other names there are, if and only if tables are created
only while they do not count as loaded, and under names that no other table has up to case. -/
theorem ctas_visible_iff (noSchemas : Bool) (name : String) (R : RemoteSchema)
    (ops : List Operation) (hops : Meets (next noSchemas) Admissible ⟨.new name, R, []⟩ ops) :
    (Visits (next noSchemas) (Visible noSchemas StandsFor) ⟨.new name, R, []⟩ ops ↔
      Meets (next noSchemas) CreatesUnloaded ⟨.new name, R, []⟩ ops) ∧
    (Visits (next noSchemas) (Visible noSchemas Reads) ⟨.new name, R, []⟩ ops ↔
      Meets (next noSchemas) CreatesApart ⟨.new name, R, []⟩ ops) := by
  have hsound : Sound ⟨.new name, R, []⟩ := ⟨reflects_new R name, by simp⟩
  have hvisible : Visible noSchemas StandsFor ⟨.new name, R, []⟩ :=
    (visible_iff hsound).mpr (knows_new _ _)
  constructor
  · exact visits_iff_meets (I := Sound) (fun w op h _ => h.next op)
      (fun w op h hop hw => visible_next_iff h hop hw) hsound hvisible hops
  · refine visits_iff_meets (I := Sound) (fun w op h _ => h.next op)
      (fun w op h hop hw => visible_reads_next_iff h hop hw) hsound ?_ hops
    exact (visible_reads_iff hsound).mpr ⟨hvisible, fun t ht => by simp at ht⟩

/-- `CREATE TABLE b AS SELECT * FROM local`. -/
def planB : Operation :=
  .plan false ⟨"main", ⟨"b", []⟩, .errorOnConflict⟩ (.mk (.tableScan "seq_scan") [] [])

/-- The execution of the insert, which creates the table `b` with the rows. -/
def executeB : Operation := .execute ⟨[], [], "b", "main", .ctas⟩ true ""

/-- `CREATE TABLE b AS` in a schema whose tables have been listed, with nothing between the two
steps. -/
theorem ctas_visible_at_once :
    Visits (next false) (Visible false Reads) ⟨.new "main", TableCache.oneTable, []⟩
      [.query (.scan ["a"]), planB, executeB] := by
  have hops : Meets (next false) Admissible ⟨.new "main", TableCache.oneTable, []⟩
      [.query (.scan ["a"]), planB, executeB] := by
    refine ⟨?_, fun q hq => Operation.noConfusion hq, fun q hq => Operation.noConfusion hq, trivial⟩
    intro q hq
    obtain rfl := Operation.query.inj hq
    exact List.Perm.refl _
  refine (ctas_visible_iff false "main" TableCache.oneTable _ hops).2.mpr
    ⟨trivial, trivial, ?_, trivial⟩
  exact fun _ => ⟨rfl, by decide⟩

/-- A scan of the schema between the planning of a `CREATE TABLE AS` and its execution: the table is
there, and is not found. -/
theorem scan_between_hides :
    Meets (next false) Admissible ⟨.new "main", TableCache.oneTable, []⟩
        [planB, .query (.scan ["a"]), executeB] ∧
      ¬ Visits (next false) (Visible false StandsFor) ⟨.new "main", TableCache.oneTable, []⟩
        [planB, .query (.scan ["a"]), executeB] := by
  refine ⟨⟨fun q hq => Operation.noConfusion hq, ?_, fun q hq => Operation.noConfusion hq,
    trivial⟩, ?_⟩
  · intro q hq
    obtain rfl := Operation.query.inj hq
    exact List.Perm.refl _
  · rintro ⟨-, -, -, hv⟩
    obtain ⟨e, he, -⟩ := hv.lookup "b" (by decide)
    have hnone : ((next false (next false (next false ⟨.new "main", TableCache.oneTable, []⟩ planB)
      (.query (.scan ["a"]))) executeB).entry.lookupEntry
        (next false (next false (next false ⟨.new "main", TableCache.oneTable, []⟩ planB)
          (.query (.scan ["a"]))) executeB).remote.bind "b").1 = none := by
      decide
    rw [hnone] at he
    cases he

end CreateTableAs

end AdbcClient
