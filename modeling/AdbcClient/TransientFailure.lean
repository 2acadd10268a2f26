import AdbcClient.CreateConflict
import AdbcClient.TableCache

/-!
# Tables that could not be bound

`GetOrCreateTableEntryInternal` takes every exception of a bind for a table that does not
exist, and after `Scan` and `CreateTable` the flag `tables_loaded` says the same of a table
that is not cached (`adbc_schema_entry.cpp`).  So a table whose bind fails in one of these
calls is `Lost`: no entry stands for it, and none will be made while the flag is set
(`lost_call`).

`failed_binds_recovered_iff` draws the consequence for whole runs.  Tables that could not be
bound are found again later only if there were none.
-/
namespace AdbcClient
open Runs AdbcSchemaEntry

/-- Binding a table of the remote while some tables fail to be bound. -/
def RemoteSchema.bindExcept (fails : RemoteTable → Bool) (R : RemoteSchema) : BindTable := fun n =>
  match R.resolve n with
  | none => none
  | some t => if fails t then none else some t.columns

theorem RemoteSchema.bindExcept_isSome {fails : RemoteTable → Bool} {R : RemoteSchema} {n : String}
    {t : RemoteTable} (h : (R.bindExcept fails n).isSome) (ht : R.resolve n = some t) :
    fails t = false := by
  cases hfails : fails t with
  | false => rfl
  | true => simp [bindExcept, ht, hfails] at h

namespace AdbcSchemaEntry
variable {bind : BindTable} {s : AdbcSchemaEntry} {R : RemoteSchema} {t : RemoteTable}

/-- An entry that a lookup leaves in the cache was there, or is one that it has bound. -/
theorem lookup_of_internal {n : String} {k : List Char} {e : AdbcTableEntry}
    (h : (s.getOrCreateTableEntryInternal bind n).2.ownedTables.lookup k = some e) :
    s.ownedTables.lookup k = some e ∨ (bind e.name).isSome := by
  rcases internal_cases bind s n with ⟨_, _, he⟩ | ⟨_, _, he⟩ | ⟨columns, _, _, hbind, he⟩
  · rw [he] at h
    exact .inl h
  · rw [he] at h
    exact .inl h
  · rw [he] at h
    by_cases hkey : k = lower n
    · subst hkey
      obtain rfl := Option.some.inj (h.symm.trans (AList.lookup_insert _))
      exact .inr (by rw [hbind]; rfl)
    · exact .inl ((AList.lookup_insert_ne hkey).symm.trans h)

theorem lookup_of_loadTables {ns : List String} {k : List Char} {e : AdbcTableEntry}
    (h : (s.loadTables bind ns).ownedTables.lookup k = some e) :
    s.ownedTables.lookup k = some e ∨ (bind e.name).isSome := by
  induction ns generalizing s with
  | nil => exact .inl h
  | cons n ns ih =>
    rcases ih h with h | h
    · exact lookup_of_internal h
    · exact .inr h

/-- While the flag is set, a lookup changes nothing. -/
theorem internal_of_loaded (h : s.tablesLoaded = true) (n : String) :
    (s.getOrCreateTableEntryInternal bind n).2 = s := by
  rcases internal_cases bind s n with ⟨_, _, he⟩ | ⟨_, _, he⟩ | ⟨_, _, hf, _, _⟩
  · rw [he]
  · rw [he]
  · rw [h] at hf
    cases hf

/-- The entry for the name of `t` stands for `t`. -/
def reads (R : RemoteSchema) (s : AdbcSchemaEntry) (t : RemoteTable) : Bool :=
  (s.ownedTables.lookup (lower t.name)).any fun e => R.resolve e.name == some t

theorem reads_iff :
    reads R s t = true ↔
      ∃ e, s.ownedTables.lookup (lower t.name) = some e ∧ R.resolve e.name = some t := by
  simp only [reads, Option.any_eq_true, beq_iff_eq]

/-- The loop of `Scan` makes no entry for a table whose bind fails. -/
theorem reads_loadTables {fails : RemoteTable → Bool} {ns : List String}
    (h : reads R (s.loadTables (R.bindExcept fails) ns) t = true) (hfails : fails t = true) :
    reads R s t = true := by
  obtain ⟨e, hk, ht⟩ := reads_iff.mp h
  rcases lookup_of_loadTables hk with hold | hbound
  · exact reads_iff.mpr ⟨e, hold, ht⟩
  · have hno := RemoteSchema.bindExcept_isSome hbound ht
    rw [hfails] at hno
    cases hno

/-- Creating another table makes no entry stand for `t`. -/
theorem reads_create {R' : RemoteSchema} {u : RemoteTable} (hcreate : R.create u = some R')
    (htu : t ≠ u) (h : reads R' s t = true) : reads R s t = true := by
  obtain ⟨e, hk, ht⟩ := reads_iff.mp h
  obtain ⟨-, hcs, htables⟩ := RemoteSchema.create_cases hcreate
  obtain ⟨hmem, hname⟩ := RemoteSchema.resolve_iff.mp ht
  rw [htables, List.mem_append, List.mem_singleton] at hmem
  exact reads_iff.mpr ⟨e, hk,
    RemoteSchema.resolve_iff.mpr ⟨hmem.resolve_right htu, hcs ▸ hname⟩⟩

/-- Nor does filing an entry of the other table. -/
theorem reads_insert {u : RemoteTable} (hu : R.resolve u.name = some u) (htu : t ≠ u)
    (loaded : Bool)
    (h : reads R { s with
      ownedTables := s.ownedTables.insert (lower u.name) ⟨u.name, u.columns⟩
      tablesLoaded := loaded } t = true) : reads R s t = true := by
  obtain ⟨e, hk, ht⟩ := reads_iff.mp h
  by_cases hkey : lower t.name = lower u.name
  · rw [hkey, AList.lookup_insert] at hk
    obtain rfl := Option.some.inj hk
    exact absurd (Option.some.inj (ht.symm.trans hu)) htu
  · exact reads_iff.mpr ⟨e, (AList.lookup_insert_ne hkey).symm.trans hk, ht⟩

end AdbcSchemaEntry

namespace TransientFailure

/-- The calls on a schema.  `fails` are the tables whose bind fails during the call, and
`LazyLoadNewTables` is called when a `CREATE TABLE AS` is planned. -/
inductive Operation where
  | lookupEntry (name : String) (fails : RemoteTable → Bool)
  | scan (fetched : Except MetadataError (List String)) (fails : RemoteTable → Bool)
  | createTable (info : CreateTableInfo) (accepts : Bool) (message : String)
      (fails : RemoteTable → Bool)
  | lazyLoadNewTables
  | clearCache

/-- The cache, the remote, and the tables that could not be bound in a `Scan` or a
`CreateTable` since the cache was last cleared. -/
structure World where
  cache : TableCache.World
  missed : List RemoteTable

variable (noSchemas : Bool)

/-- What a call does to the cache and to the remote. -/
def call (w : TableCache.World) : Operation → TableCache.World
  | .lookupEntry n fails =>
    { w with entry := (w.entry.lookupEntry (w.remote.bindExcept fails) n).2 }
  | .scan fetched fails =>
    { w with entry := (w.entry.scan noSchemas .tableEntry (fun _ => fetched)
        (w.remote.bindExcept fails)).2 }
  | .createTable info accepts message fails =>
    let (_, entry, remote) := w.entry.createTable noSchemas (ingest accepts message)
      (RemoteSchema.bindExcept fails) info w.remote
    ⟨entry, remote⟩
  | .lazyLoadNewTables => { w with entry := w.entry.lazyLoadNewTables }
  | .clearCache => { w with entry := .new w.entry.name }

instance (w : TableCache.World) (info : CreateTableInfo) (accepts : Bool) :
    Decidable (TableCache.Creates w info accepts) :=
  inferInstanceAs (Decidable (_ ≠ _ ∧ _ ∉ _ ∧ _ = _ ∧ _ = _))

/-- The tables a call is to bind and cannot: those that are listed and have no entry, and the
one that it creates. -/
def misses (w : TableCache.World) : Operation → List RemoteTable
  | .scan (.ok tableNames) fails =>
    if w.entry.tablesLoaded then []
    else w.remote.tables.filter fun t =>
      fails t && tableNames.any (fun n => w.remote.resolve n == some t) &&
        !reads w.remote w.entry t
  | .createTable info accepts _ fails =>
    if TableCache.Creates w info accepts ∧ fails info.table then [info.table] else []
  | _ => []

/-- A call, and what was missed since the cache was last cleared, because binds failed. -/
def next (w : World) (op : Operation) : World where
  cache := call noSchemas w.cache op
  missed :=
    match op with
    | .clearCache => []
    | _ => w.missed ++ misses w.cache op

/-- `LookupEntry` returns the entry of the table, if its bind succeeds now. -/
def Finds (w : TableCache.World) (t : RemoteTable) : Prop :=
  ∃ e, (w.entry.lookupEntry w.remote.bind t.name).1 = some e ∧ w.remote.resolve e.name = some t

/-- **Failures are transient**: a table that could not be bound is found by now, if the
remote has recovered. -/
def Recovers (w : World) : Prop := ∀ t ∈ w.missed, Finds w.cache t

/-- Every table that the call is to bind is bound. -/
def BindsAll (w : World) (op : Operation) : Prop := misses w.cache op = []

/-- No entry stands for the table, and the flag keeps one from being made. -/
structure Lost (w : TableCache.World) (t : RemoteTable) : Prop where
  loaded : w.entry.tablesLoaded = true
  unread : reads w.remote w.entry t = false
  mem : t ∈ w.remote.tables

variable {noSchemas} {w : TableCache.World} {t : RemoteTable}

theorem Lost.not_finds (h : Lost w t) : ¬ Finds w t := by
  rintro ⟨e, he, ht⟩
  have hcached := lookup_of_lookupEntry he
  rw [lookupEntry, internal_of_loaded h.loaded] at hcached
  have hread := reads_iff.mpr ⟨e, hcached, ht⟩
  rw [h.unread] at hread
  cases hread

/-- **What `CreateTable` can do** while tables fail: change nothing, or create the table,
set the flag, and cache an entry of it unless it fails. -/
theorem createTable_cases (noSchemas : Bool) (w : TableCache.World) (info : CreateTableInfo)
    (accepts : Bool) (message : String) (fails : RemoteTable → Bool) :
    (¬ TableCache.Creates w info accepts ∧
      call noSchemas w (.createTable info accepts message fails) = w) ∨
    (TableCache.Creates w info accepts ∧ ∃ R', w.remote.create info.table = some R' ∧
      call noSchemas w (.createTable info accepts message fails) =
        ⟨{ w.entry with
            ownedTables := if fails info.table then w.entry.ownedTables else
              w.entry.ownedTables.insert (lower info.table.name)
                ⟨info.table.name, info.table.columns⟩
            tablesLoaded := true }, R'⟩) := by
  rcases AdbcSchemaEntry.createTable_cases noSchemas (ingest accepts message)
      (RemoteSchema.bindExcept fails) info w.entry w.remote with
    ⟨hreplace, e, he⟩ | ⟨-, hcached, he⟩ | ⟨-, -, _, hfailed, he⟩ | ⟨hmode, hk, R', hok, he⟩
  · exact .inl ⟨fun h => h.1 hreplace, by simp only [call, he]⟩
  · exact .inl ⟨fun h => h.2.1 hcached, by simp only [call, he]⟩
  · refine .inl ⟨fun h => ?_, by simp only [call, he]⟩
    rcases ingest_cases accepts message w.remote
        (getInternalSchemaName noSchemas info.schema) info.table with
      ⟨_, -, -, hok⟩ | ⟨hno, -⟩
    · cases hok.symm.trans hfailed
    · exact hno h.2.2
  · rcases ingest_cases accepts message w.remote
        (getInternalSchemaName noSchemas info.schema) info.table with
      ⟨R'', ha, hcreate, hok'⟩ | ⟨-, hfailed⟩
    · obtain rfl := Except.ok.inj (hok'.symm.trans hok)
      obtain ⟨hr, -, -⟩ := RemoteSchema.create_cases hcreate
      refine .inr ⟨⟨hmode, hk, ha, hr⟩, R'', hcreate, ?_⟩
      have hnew := RemoteSchema.resolve_created hcreate
      cases hfails : fails info.table <;>
        simp [call, he, RemoteSchema.bindExcept, hnew, hfails]
    · cases hok.symm.trans hfailed

/-- **A table that a call misses is lost.** -/
theorem lost_of_misses {op : Operation} (h : t ∈ misses w op) : Lost (call noSchemas w op) t := by
  cases op with
  | lookupEntry n fails => cases h
  | lazyLoadNewTables => cases h
  | clearCache => cases h
  | scan fetched fails =>
    cases fetched with
    | error e => cases h
    | ok tableNames =>
      rcases scan_listed_cases noSchemas tableNames (w.remote.bindExcept fails) w.entry with
        ⟨hloaded, -⟩ | ⟨hloaded, he⟩
      · simp [misses, hloaded] at h
      · simp only [misses, hloaded, Bool.false_eq_true, if_false, List.mem_filter,
          Bool.and_eq_true, Bool.not_eq_true'] at h
        obtain ⟨hmem, ⟨hfails, -⟩, hunread⟩ := h
        rw [call, he]
        refine ⟨rfl, ?_, hmem⟩
        by_contra hread
        rw [reads_loadTables (Bool.not_eq_false _ ▸ hread) hfails] at hunread
        cases hunread
  | createTable info accepts message fails =>
    rcases createTable_cases noSchemas w info accepts message fails with
      ⟨hno, -⟩ | ⟨hyes, R', hcreate, he⟩
    · simp [misses, hno] at h
    · simp only [misses, hyes, true_and] at h
      split at h
      · rename_i hfails
        obtain rfl := List.mem_singleton.mp h
        obtain ⟨hr, hcs, htables⟩ := RemoteSchema.create_cases hcreate
        rw [he, if_pos hfails]
        refine ⟨rfl, ?_, by simp [htables]⟩
        by_contra hread
        obtain ⟨e, hk, -⟩ := reads_iff.mp (Bool.not_eq_false _ ▸ hread)
        exact hyes.2.1 (mem_of_lookup hk)
      · cases h

/-- **A lost table stays lost**, until the cache is cleared or the flag is. -/
theorem lost_call (h : Lost w t) {op : Operation} (hclear : op ≠ .clearCache)
    (hlazy : op ≠ .lazyLoadNewTables) : Lost (call noSchemas w op) t := by
  cases op with
  | lazyLoadNewTables => exact absurd rfl hlazy
  | clearCache => exact absurd rfl hclear
  | lookupEntry n fails =>
    rw [call, lookupEntry, internal_of_loaded h.loaded]
    exact h
  | scan fetched fails =>
    rcases scan_cases noSchemas (fun _ => fetched) (w.remote.bindExcept fails) w.entry with
      ⟨-, he⟩ | ⟨hno, -⟩ | ⟨hno, -⟩
    · rw [call, he]
      exact h
    all_goals
      rw [h.loaded] at hno
      cases hno
  | createTable info accepts message fails =>
    rcases createTable_cases noSchemas w info accepts message fails with
      ⟨-, he⟩ | ⟨-, R', hcreate, he⟩
    · rw [he]
      exact h
    · obtain ⟨hr, -, htables⟩ := RemoteSchema.create_cases hcreate
      have hne : t ≠ info.table := by
        rintro rfl
        rw [RemoteSchema.resolve_name h.mem] at hr
        cases hr
      rw [he]
      refine ⟨rfl, ?_, by simp [htables, h.mem]⟩
      by_contra hread
      have hunread := h.unread
      rw [Bool.not_eq_false] at hread
      have hold : reads R' w.entry t = true := by
        split at hread
        · exact hread
        · exact reads_insert (RemoteSchema.resolve_created hcreate) hne true hread
      rw [reads_create hcreate hne hold] at hunread
      cases hunread

/-- **One call.**  If nothing was missed before it, what it misses is not found after it. -/
theorem recovers_next_iff {w : World} (hw : w.missed = []) (op : Operation) :
    Recovers (next noSchemas w op) ↔ BindsAll w op := by
  constructor
  · intro h
    refine List.eq_nil_iff_forall_not_mem.mpr fun t ht => ?_
    have hmem : t ∈ (next noSchemas w op).missed := by
      cases op with
      | clearCache => cases ht
      | _ => exact List.mem_append_right _ ht
    exact (lost_of_misses ht).not_finds (h t hmem)
  · intro h t ht
    have hnone : (next noSchemas w op).missed = [] := by
      cases op with
      | clearCache => rfl
      | _ => exact List.append_eq_nil_iff.mpr ⟨hw, h⟩
    rw [hnone] at ht
    cases ht

/-- **When failures are transient throughout a run.**  A table whose bind has failed is found once
the remote has recovered, at every point of a run, if and only if every table that a call is to bind
is bound.  A table that a call misses is not found after any calls that neither clear the cache nor
the flag, whether or not the remote has recovered. -/
theorem failed_binds_recovered_iff (noSchemas : Bool) (name : String) (R : RemoteSchema)
    (ops : List Operation) :
    (Visits (next noSchemas) Recovers ⟨⟨.new name, R⟩, []⟩ ops ↔
      Meets (next noSchemas) BindsAll ⟨⟨.new name, R⟩, []⟩ ops) ∧
    ∀ op later, (∀ o ∈ later, o ≠ .clearCache ∧ o ≠ .lazyLoadNewTables) →
      ∀ t ∈ misses (run (call noSchemas) ⟨.new name, R⟩ ops) op,
        ¬ Finds (run (call noSchemas) ⟨.new name, R⟩ (ops ++ op :: later)) t := by
  constructor
  · refine visits_iff_meets_while (I := fun w => w.missed = []) (A := fun _ _ => True)
      (fun w op hw _ hbinds => ?_) (fun w op hw _ _ => recovers_next_iff hw op) rfl
      (fun t ht => by cases ht) (meets_true _ ops)
    cases op with
    | clearCache => rfl
    | _ => exact List.append_eq_nil_iff.mpr ⟨hw, hbinds⟩
  · intro op later hlater t ht
    have hlost : Lost (run (call noSchemas)
        (call noSchemas (run (call noSchemas) ⟨.new name, R⟩ ops) op) later) t :=
      run_invariant (call noSchemas) (I := fun w => Lost w t)
        (fun w o ho h => lost_call h (hlater o ho).1 (hlater o ho).2) (lost_of_misses ht)
    rw [run, List.foldl_append]
    exact hlost.not_finds

/-- A scan while the table `a` fails. -/
def failingScan : Operation := .scan (.ok ["a"]) fun _ => true

/-- After a scan in which the bind of `a` failed, the tables count as loaded, and `a` is not
found. -/
theorem failed_scan_remembered :
    misses ⟨.new "main", remoteA⟩ failingScan = remoteA.tables ∧
      ¬ Visits (next false) Recovers ⟨⟨.new "main", remoteA⟩, []⟩ [failingScan] := by
  refine ⟨by decide, ?_⟩
  rintro ⟨-, hv⟩
  obtain ⟨e, he, -⟩ := hv ⟨"a", [⟨"n", ⟨"INTEGER"⟩⟩]⟩ (by decide)
  have hnone : ((call false ⟨.new "main", remoteA⟩ failingScan).entry.lookupEntry
      remoteA.bind "a").1 = none := by decide
  cases hnone.symm.trans he

end TransientFailure
end AdbcClient
