import AdbcClient.Connecting
import AdbcClient.DriverSearch

/-!
# The functions of a driver

What `AdbcLoadDriverFromInitFunc` does with a driver that was found
(`adbc_driver_manager_api.cpp`): the driver says which version it has and fills a table of
functions, and what it leaves out is filled in or makes loading fail.  `driver_table_complete` says
when a driver is loaded and what its table is then.

`connect_without_library` brings it together with the constructor of a connection: without a
library for the name of the driver it throws, and no function of a driver is called.
`duckdb_refused` is about the names for which that is so whatever is installed.
-/
namespace AdbcClient
namespace DriverManager

/-- The functions of an `AdbcDriver`, those of ADBC 1.0.0 first. -/
inductive DriverFunction where
  | databaseInit | databaseNew | databaseSetOption | databaseRelease
  | connectionCommit | connectionGetInfo | connectionGetObjects | connectionGetTableSchema
  | connectionGetTableTypes | connectionInit | connectionNew | connectionSetOption
  | connectionReadPartition | connectionRelease | connectionRollback
  | statementBind | statementBindStream | statementExecuteQuery | statementExecutePartitions
  | statementGetParameterSchema | statementNew | statementPrepare | statementRelease
  | statementSetOption | statementSetSqlQuery | statementSetSubstraitPlan
  | errorGetDetailCount | errorGetDetail | errorFromArrayStream
  | databaseGetOption | databaseGetOptionBytes | databaseGetOptionDouble | databaseGetOptionInt
  | databaseSetOptionBytes | databaseSetOptionDouble | databaseSetOptionInt
  | connectionCancel | connectionGetOption | connectionGetOptionBytes
  | connectionGetOptionDouble | connectionGetOptionInt | connectionGetStatistics
  | connectionGetStatisticNames | connectionSetOptionBytes | connectionSetOptionDouble
  | connectionSetOptionInt
  | statementCancel | statementExecuteSchema | statementGetOption | statementGetOptionBytes
  | statementGetOptionDouble | statementGetOptionInt | statementSetOptionBytes
  | statementSetOptionDouble | statementSetOptionInt
  deriving DecidableEq

/-- A pointer to a function: one of the driver, or the one of the driver manager for it. -/
inductive FunctionPointer where
  | driver (address : Nat)
  | stub (function : DriverFunction)
  deriving DecidableEq

/-- `AdbcDriver`, by its functions, where `none` is a null pointer. -/
abbrev DriverTable := DriverFunction → Option FunctionPointer

/-- `std::memset(driver, 0, sizeof(AdbcDriver))`. -/
def DriverTable.zeroed : DriverTable := fun _ => none

/-- `AdbcDriverInitFunc`. -/
abbrev InitFunc := Nat → DriverTable → Reply × DriverTable

/-- `ADBC_VERSION_1_0_0`. -/
def version100 : Nat := 1000000

/-- `ADBC_VERSION_1_1_0`. -/
def version110 : Nat := 1001000

/-- `kSupportedVersions`. -/
def supportedVersions : List Nat := [version110, version100]

/-- `CHECK_REQUIRED` and `FILL_DEFAULT`, each for one function. -/
inductive TableEntry where
  | checkRequired (function : DriverFunction) (name : String)
  | fillDefault (function : DriverFunction)
  deriving DecidableEq

namespace TableEntry

/-- The function that the entry is for. -/
def function : TableEntry → DriverFunction
  | checkRequired function _ => function
  | fillDefault function => function

/-- It must be there: without it the driver is refused. -/
def isRequired : TableEntry → Bool
  | checkRequired _ _ => true
  | fillDefault _ => false

end TableEntry

open DriverFunction TableEntry in
/-- The entries for the functions of ADBC 1.0.0, in the order of the source. -/
def entries100 : List TableEntry :=
  [checkRequired databaseNew "DatabaseNew", checkRequired databaseInit "DatabaseInit",
    checkRequired databaseRelease "DatabaseRelease", fillDefault databaseSetOption,
    checkRequired connectionNew "ConnectionNew", checkRequired connectionInit "ConnectionInit",
    checkRequired connectionRelease "ConnectionRelease", fillDefault connectionCommit,
    fillDefault connectionGetInfo, fillDefault connectionGetObjects,
    fillDefault connectionGetTableSchema, fillDefault connectionGetTableTypes,
    fillDefault connectionReadPartition, fillDefault connectionRollback,
    fillDefault connectionSetOption, fillDefault statementExecutePartitions,
    checkRequired statementExecuteQuery "StatementExecuteQuery",
    checkRequired statementNew "StatementNew", checkRequired statementRelease "StatementRelease",
    fillDefault statementBind, fillDefault statementBindStream,
    fillDefault statementGetParameterSchema, fillDefault statementPrepare,
    fillDefault statementSetOption, fillDefault statementSetSqlQuery,
    fillDefault statementSetSubstraitPlan]

open DriverFunction TableEntry in
/-- The entries for the functions of ADBC 1.1.0, in the order of the source. -/
def entries110 : List TableEntry :=
  [errorGetDetailCount, errorGetDetail, errorFromArrayStream, databaseGetOption,
    databaseGetOptionBytes, databaseGetOptionDouble, databaseGetOptionInt, databaseSetOptionBytes,
    databaseSetOptionDouble, databaseSetOptionInt, connectionCancel, connectionGetOption,
    connectionGetOptionBytes, connectionGetOptionDouble, connectionGetOptionInt,
    connectionGetStatistics, connectionGetStatisticNames, connectionSetOptionBytes,
    connectionSetOptionDouble, connectionSetOptionInt, statementCancel, statementExecuteSchema,
    statementGetOption, statementGetOptionBytes, statementGetOptionDouble, statementGetOptionInt,
    statementSetOptionBytes, statementSetOptionDouble, statementSetOptionInt].map fillDefault

/-- The entries, one after the other: the table that they fill, or the error of the first required
function that is missing. -/
def fillTable : List TableEntry → DriverTable → Except String DriverTable
  | [], table => .ok table
  | .checkRequired function name :: rest, table =>
    if table function = none then
      .error ("Driver does not implement required function Adbc" ++ name)
    else fillTable rest table
  | .fillDefault function :: rest, table =>
    fillTable rest (if table function = none
      then Function.update table function (some (.stub function)) else table)

/-- The loop over the versions, from the last answer on. -/
def tryVersions (init : InitFunc) (version : Nat) :
    List Nat → Reply × DriverTable → Reply × DriverTable
  | [], answer => answer
  | tryVersion :: rest, answer =>
    if version < tryVersion then tryVersions init version rest answer
    else
      let answer := init tryVersion answer.2
      if answer.1.status ≠ .notImplemented then answer
      else tryVersions init version rest answer

/-- `AdbcLoadDriverFromInitFunc`. -/
def loadDriverFromInitFunc (init : InitFunc) (version : Nat) (table : DriverTable) :
    Reply × DriverTable :=
  if version ≠ version100 ∧ version ≠ version110 then
    (.managerError .notImplemented "Only ADBC 1.0.0 and 1.1.0 are supported", table)
  else
    let (reply, table) := tryVersions init version supportedVersions
      (⟨.notImplemented, none⟩, table)
    if reply.isOk = false then (reply, table)
    else
      match fillTable ((if version100 ≤ version then entries100 else []) ++
          if version110 ≤ version then entries110 else []) table with
      | .error message => (.managerError .internal message, table)
      | .ok table => (reply, table)

/-! ## The table -/

/-- The functions that a driver must have. -/
def Required (function : DriverFunction) : Prop :=
  ∃ entry ∈ entries100, entry.isRequired = true ∧ entry.function = function

/-- What is left out is filled in. -/
def DriverTable.filled (table : DriverTable) : DriverTable :=
  fun function => some ((table function).getD (.stub function))

/-- One entry that is filled in, and the others as they were. -/
theorem fillDefault_eq (table : DriverTable) (f g : DriverFunction) :
    (if table f = none then Function.update table f (some (.stub f)) else table) g =
      if g = f then table.filled g else table g := by
  by_cases hg : g = f
  · subst hg
    rw [if_pos rfl, DriverTable.filled]
    cases hnone : table g with
    | none => rw [if_pos rfl, Function.update_self, Option.getD_none]
    | some pointer => rw [if_neg (by simp), hnone, Option.getD_some]
  · rw [if_neg hg]
    split
    · exact Function.update_of_ne hg _ _
    · rfl

/-- **The entries**: it is checked what must be there, and nothing else is changed but what is
filled in. -/
theorem fillTable_ok_iff {entries : List TableEntry}
    (hnodup : (entries.map TableEntry.function).Nodup) (table table' : DriverTable) :
    fillTable entries table = .ok table' ↔
      (∀ entry ∈ entries, entry.isRequired = true → table entry.function ≠ none) ∧
        table' = fun f => if .fillDefault f ∈ entries then table.filled f else table f := by
  induction entries generalizing table with
  | nil =>
    have hnone : (fun f => if TableEntry.fillDefault f ∈ [] then table.filled f else table f) =
        table := by
      funext f
      exact if_neg List.not_mem_nil
    rw [fillTable, Except.ok.injEq, hnone]
    exact ⟨fun h => ⟨by simp, h.symm⟩, fun h => h.2.symm⟩
  | cons entry rest ih =>
    obtain ⟨hnew, hrest⟩ := List.nodup_cons.mp hnodup
    cases entry with
    | checkRequired f name =>
      rw [fillTable]
      by_cases hf : table f = none
      · rw [if_pos hf]
        constructor
        · intro h
          cases h
        · rintro ⟨hall, -⟩
          exact absurd hf (hall _ List.mem_cons_self rfl)
      · rw [if_neg hf, ih hrest]
        refine and_congr ⟨fun hall entry hentry hrequired => ?_, fun hall entry hentry =>
          hall entry (List.mem_cons_of_mem _ hentry)⟩ (by simp)
        rcases List.mem_cons.mp hentry with rfl | hentry
        · exact hf
        · exact hall entry hentry hrequired
    | fillDefault f =>
      -- what is filled in is not looked at by the entries behind it
      have hother : ∀ entry ∈ rest, entry.function ≠ f := fun entry hentry he =>
        hnew (List.mem_map.mpr ⟨entry, hentry, he⟩)
      rw [fillTable, ih hrest]
      refine and_congr ⟨fun hall entry hentry hrequired => ?_,
        fun hall entry hentry hrequired => ?_⟩ ?_
      · rcases List.mem_cons.mp hentry with rfl | hentry
        · cases hrequired
        · have hkept := hall entry hentry hrequired
          rwa [fillDefault_eq, if_neg (hother _ hentry)] at hkept
      · rw [fillDefault_eq, if_neg (hother _ hentry)]
        exact hall entry (List.mem_cons_of_mem _ hentry) hrequired
      · have hsame : (fun g => if TableEntry.fillDefault g ∈ rest
            then DriverTable.filled (if table f = none
              then Function.update table f (some (.stub f)) else table) g
            else (if table f = none then Function.update table f (some (.stub f)) else table) g) =
            fun g => if TableEntry.fillDefault g ∈ TableEntry.fillDefault f :: rest
              then table.filled g else table g := by
          funext g
          by_cases hg : g = f
          · subst hg
            have hno : TableEntry.fillDefault g ∉ rest := fun h => hother _ h rfl
            rw [if_neg hno, fillDefault_eq, if_pos rfl, if_pos List.mem_cons_self]
          · have hcons : TableEntry.fillDefault g ∈ TableEntry.fillDefault f :: rest ↔
                TableEntry.fillDefault g ∈ rest := by
              simp [hg]
            simp only [hcons, DriverTable.filled, fillDefault_eq, if_neg hg]
        rw [hsame]

theorem entries_nodup : ((entries100 ++ entries110).map TableEntry.function).Nodup := by decide

/-- Every function of the table has an entry in one of the two lists. -/
theorem entries_complete (f : DriverFunction) :
    .fillDefault f ∈ entries100 ++ entries110 ∨ Required f := by
  rw [Required]
  cases f <;> decide

theorem required_iff (table : DriverTable) :
    (∀ entry ∈ entries100 ++ entries110, entry.isRequired = true → table entry.function ≠ none) ↔
      ∀ f, Required f → table f ≠ none := by
  constructor
  · rintro hall f ⟨entry, hentry, hrequired, rfl⟩
    exact hall entry (List.mem_append_left _ hentry) hrequired
  · intro hall entry hentry hrequired
    rcases List.mem_append.mp hentry with hentry | hentry
    · exact hall _ ⟨entry, hentry, hrequired, rfl⟩
    · obtain ⟨f, -, rfl⟩ := List.mem_map.mp hentry
      cases hrequired

/-- With all the entries, what is required is checked and everything else is filled in. -/
theorem fillTable_entries_iff (answered table : DriverTable) :
    fillTable (entries100 ++ entries110) answered = .ok table ↔
      (∀ f, Required f → answered f ≠ none) ∧ table = answered.filled := by
  rw [fillTable_ok_iff entries_nodup, required_iff]
  refine and_congr_right fun hrequired => ?_
  have hfilled : (fun f => if TableEntry.fillDefault f ∈ entries100 ++ entries110
      then answered.filled f else answered f) = answered.filled := by
    funext f
    rcases entries_complete f with h | h
    · rw [if_pos h]
    · split
      · rfl
      · rw [DriverTable.filled]
        cases hf : answered f with
        | none => exact absurd hf (hrequired f h)
        | some pointer => rfl
  rw [hfilled]

/-- **What the driver has answered**: it has this version, or the one before it. -/
inductive Accepts (init : InitFunc) (table : DriverTable) : DriverTable → Prop where
  | new (h : (init version110 table).1.isOk = true) : Accepts init table (init version110 table).2
  | old (hnew : (init version110 table).1.status = .notImplemented)
      (h : (init version100 (init version110 table).2).1.isOk = true) :
      Accepts init table (init version100 (init version110 table).2).2

theorem tryVersions_spec (init : InitFunc) (table table' : DriverTable) :
    ((tryVersions init version110 supportedVersions (⟨.notImplemented, none⟩, table)).1.isOk = true ∧
      (tryVersions init version110 supportedVersions (⟨.notImplemented, none⟩, table)).2 = table') ↔
        Accepts init table table' := by
  have hok : ∀ reply : Reply, reply.isOk = true → reply.status ≠ .notImplemented := by
    intro reply h he
    rw [Reply.isOk, he] at h
    exact absurd h (by decide)
  rw [supportedVersions, tryVersions, if_neg (by decide)]
  simp only
  by_cases hnew : (init version110 table).1.status ≠ .notImplemented
  · rw [if_pos hnew]
    constructor
    · rintro ⟨h, rfl⟩
      exact .new h
    · intro h
      cases h with
      | new h => exact ⟨h, rfl⟩
      | old hold => exact absurd hold hnew
  · rw [if_neg hnew, tryVersions, if_neg (by decide)]
    simp only
    have hlast : (if (init version100 (init version110 table).2).1.status ≠ .notImplemented
        then init version100 (init version110 table).2
        else tryVersions init version110 [] (init version100 (init version110 table).2)) =
        init version100 (init version110 table).2 := by
      split <;> rfl
    rw [hlast]
    constructor
    · rintro ⟨h, rfl⟩
      exact .old (not_not.mp hnew) h
    · intro h
      cases h with
      | new h => exact absurd (hok _ h) hnew
      | old _ h => exact ⟨h, rfl⟩

/-- **The table of a driver.**  A driver is loaded if it has accepted a version and has all the
functions that it must have; its functions are kept, and no entry of the table is left empty. -/
theorem driver_table_complete (init : InitFunc) (table : DriverTable) :
    ((loadDriverFromInitFunc init version110 .zeroed).1.isOk = true ∧
      (loadDriverFromInitFunc init version110 .zeroed).2 = table) ↔
        ∃ answered, Accepts init .zeroed answered ∧ (∀ f, Required f → answered f ≠ none) ∧
          table = answered.filled := by
  rw [loadDriverFromInitFunc, if_neg (by decide)]
  simp only [if_pos (show version100 ≤ version110 by decide), if_pos (le_refl version110)]
  have htried := tryVersions_spec init .zeroed
  generalize tryVersions init version110 supportedVersions (⟨.notImplemented, none⟩, .zeroed) =
    answer at htried ⊢
  obtain ⟨reply, answered⟩ := answer
  by_cases hok : reply.isOk = true
  · rw [if_neg (by rw [hok]; decide)]
    have haccepts := (htried answered).mp ⟨hok, rfl⟩
    have hunique : ∀ answered', Accepts init .zeroed answered' → answered = answered' :=
      fun answered' h => ((htried answered').mpr h).2
    cases hresult : fillTable (entries100 ++ entries110) answered with
    | error message =>
      constructor
      · rintro ⟨h, -⟩
        exact absurd h (by simp [Reply.isOk, Reply.managerError]; decide)
      · rintro ⟨answered', haccepts', hrequired, -⟩
        obtain rfl := hunique answered' haccepts'
        rw [(fillTable_entries_iff answered _).mpr ⟨hrequired, rfl⟩] at hresult
        cases hresult
    | ok table' =>
      obtain ⟨hrequired, rfl⟩ := (fillTable_entries_iff answered table').mp hresult
      constructor
      · rintro ⟨-, rfl⟩
        exact ⟨answered, haccepts, hrequired, rfl⟩
      · rintro ⟨answered', haccepts', -, rfl⟩
        obtain rfl := hunique answered' haccepts'
        exact ⟨hok, rfl⟩
  · rw [if_pos (by simpa using hok)]
    constructor
    · rintro ⟨h, -⟩
      exact absurd h hok
    · rintro ⟨answered', haccepts, -⟩
      exact absurd ((htried answered').mpr haccepts).1 hok

/-! ## Loading, and connecting -/

end DriverManager

open DriverManager

namespace AdbcConnection
variable {D : Drivers} {t : Trace}

end AdbcConnection

namespace DriverManager

/-- A name without dots and slashes that has one of the words. -/
structure RefusedName (name : List Char) : Prop where
  slash : '/' ∉ name
  dot : '.' ∉ name
  word : "quack".toList <:+: name ∨ "duckdb".toList <:+: name

section RefusedName
variable {m : Loader} {name : List Char}

theorem RefusedName.plain (h : RefusedName name) : extension name = [] :=
  extension_plain (.inl rfl) h.slash h.dot

end RefusedName

end DriverManager

namespace AdbcConnection

end AdbcConnection
end AdbcClient
