import AdbcClient.Catalog

/-!
# Table functions that act once

`adbc_execute` and `adbc_clear_cache` are table functions with one row of output.  DuckDB
calls such a function until its output is empty, so both mark in their bind data that they
have acted (`finished` in `adbc_execute.cpp` and `adbc_clear_cache.cpp`).  A prepared plan
keeps its bind data from one execution to the next, and the mark with it: `adbc_scan` has
DuckDB's own state for each execution instead.

`effect_once_iff` says which executions still act.
-/
namespace AdbcClient

/-- What the executions of a plan share: the mark in the bind data, what the function acts
on, and how often it has acted. -/
structure SharedState (σ : Type) where
  finished : Bool
  state : σ
  performed : Nat
  deriving DecidableEq, Repr

section OneShot
variable {ι σ : Type}

/-- The body of both functions: the output is one row, or none, or the function throws. -/
def oneShot (perform : σ → Except String Unit × σ) (s : SharedState σ) :
    Except String (List Bool) × SharedState σ :=
  if s.finished then (.ok [], s)
  else
    match perform s.state with
    | (.error message, state) => (.error message, ⟨false, state, s.performed + 1⟩)
    | (.ok (), state) => (.ok [true], ⟨true, state, s.performed + 1⟩)

/-- One execution: the function is called until its output is empty, or it throws. -/
def execution (function : SharedState σ → Except String (List Bool) × SharedState σ) :
    Nat → SharedState σ → Option (List (List Bool) × Except String Unit × SharedState σ)
  | 0, _ => none
  | fuel + 1, s =>
    match function s with
    | (.error message, s) => some ([], .error message, s)
    | (.ok [], s) => some ([[]], .ok (), s)
    | (.ok rows, s) =>
      (execution function fuel s).map fun (chunks, result, s) => (rows :: chunks, result, s)

/-- What is seen of an execution: how often it has performed its effect, the chunks that it has
returned, and how it has ended. -/
structure ExecutionReport where
  performed : Nat
  chunks : List (List Bool)
  result : Except String Unit
  deriving DecidableEq

/-- The executions of a plan, one for each of `answers`. -/
def executions (function : ι → SharedState σ → Except String (List Bool) × SharedState σ)
    (fuel : Nat) : List ι → SharedState σ → Option (List ExecutionReport)
  | [], _ => some []
  | answer :: answers, s => do
    let (chunks, result, s') ← execution (function answer) fuel s
    let reports ← executions function fuel answers s'
    return ⟨s'.performed - s.performed, chunks, result⟩ :: reports

/-- **The execution acts exactly once**, and if it succeeds, its output is one row. -/
structure ExecutionReport.Once (report : ExecutionReport) : Prop where
  performed : report.performed = 1
  chunks : report.result = .ok () → report.chunks = [[true], []]

variable {perform : σ → Except String Unit × σ}

/-- **What an execution does**: nothing, if one before it has succeeded; else it acts, and
fails or marks the plan as finished.  Two calls are enough. -/
theorem execution_cases (perform : σ → Except String Unit × σ) (fuel : Nat) (s : SharedState σ) :
    (s.finished = true ∧ execution (oneShot perform) (fuel + 2) s = some ([[]], .ok (), s)) ∨
    (s.finished = false ∧ ∃ message state, perform s.state = (.error message, state) ∧
      execution (oneShot perform) (fuel + 2) s =
        some ([], .error message, ⟨false, state, s.performed + 1⟩)) ∨
    (s.finished = false ∧ ∃ state, perform s.state = (.ok (), state) ∧
      execution (oneShot perform) (fuel + 2) s =
        some ([[true], []], .ok (), ⟨true, state, s.performed + 1⟩)) := by
  cases hfinished : s.finished with
  | true => exact .inl ⟨rfl, by simp [execution, oneShot, hfinished]⟩
  | false =>
    rcases hperform : perform s.state with ⟨message | ⟨⟩, state⟩
    · exact .inr (.inl ⟨rfl, message, state, rfl,
        by simp [execution, oneShot, hfinished, hperform]⟩)
    · exact .inr (.inr ⟨rfl, state, rfl, by simp [execution, oneShot, hfinished, hperform]⟩)

variable (perform : ι → σ → Except String Unit × σ)

/-- Once the plan is finished, no execution acts. -/
theorem executions_finished (fuel : Nat) (answers : List ι) {s : SharedState σ}
    (hs : s.finished = true) :
    ∃ reports, executions (fun a => oneShot (perform a)) (fuel + 2) answers s = some reports ∧
      reports.length = answers.length ∧ ∀ report ∈ reports, report.performed = 0 := by
  induction answers with
  | nil => exact ⟨[], rfl, rfl, fun _ h => by cases h⟩
  | cons answer answers ih =>
    obtain ⟨reports, he, hlen, hnone⟩ := ih
    rcases execution_cases (perform answer) fuel s with
      ⟨-, hexec⟩ | ⟨hno, -⟩ | ⟨hno, -⟩
    · refine ⟨⟨0, [[]], .ok ()⟩ :: reports, by simp [executions, hexec, he],
        by simp [hlen], ?_⟩
      intro report hreport
      rcases List.mem_cons.mp hreport with rfl | hmem
      · rfl
      · exact hnone report hmem
    all_goals
      rw [hs] at hno
      cases hno

/-- **Every execution acts once** if and only if all but the last fail. -/
theorem executions_once_iff (Fails : ι → Prop)
    (hperform : ∀ a s, (∃ message, (perform a s).1 = .error message) ↔ Fails a)
    (fuel : Nat) (answers : List ι) {s : SharedState σ} (hs : s.finished = false) :
    ∃ reports, executions (fun a => oneShot (perform a)) (fuel + 2) answers s = some reports ∧
      reports.length = answers.length ∧
      ((∀ report ∈ reports, report.Once) ↔ ∀ a ∈ answers.dropLast, Fails a) := by
  induction answers generalizing s with
  | nil => exact ⟨[], rfl, rfl, by simp⟩
  | cons answer answers ih =>
    rcases execution_cases (perform answer) fuel s with
      ⟨hno, -⟩ | ⟨-, message, state, herror, hexec⟩ | ⟨-, state, hok, hexec⟩
    · rw [hs] at hno
      cases hno
    · -- a failure leaves the plan as it was
      have hfails : Fails answer := (hperform answer s.state).mp ⟨message, by rw [herror]⟩
      obtain ⟨reports, he, hlen, hiff⟩ := ih (s := ⟨false, state, s.performed + 1⟩) rfl
      refine ⟨⟨1, [], .error message⟩ :: reports, by simp [executions, hexec, he],
        by simp [hlen], ?_⟩
      have honce : ExecutionReport.Once ⟨1, [], .error message⟩ := ⟨rfl, fun h => by cases h⟩
      rw [List.forall_mem_cons, hiff]
      cases answers with
      | nil => exact iff_of_true ⟨honce, by simp⟩ (by simp)
      | cons b answers =>
        rw [List.dropLast_cons_cons, List.forall_mem_cons]
        exact ⟨fun h => ⟨hfails, h.2⟩, fun h => ⟨honce, h.2⟩⟩
    · -- a success leaves nothing to the executions that follow
      have hsucceeds : ¬ Fails answer := by
        intro hfails
        obtain ⟨message, herror⟩ := (hperform answer s.state).mpr hfails
        rw [hok] at herror
        cases herror
      obtain ⟨reports, he, hlen, hnone⟩ :=
        executions_finished perform fuel answers (s := ⟨true, state, s.performed + 1⟩) rfl
      refine ⟨⟨1, [[true], []], .ok ()⟩ :: reports, by simp [executions, hexec, he],
        by simp [hlen], ?_⟩
      cases answers with
      | nil =>
        obtain rfl := List.length_eq_zero_iff.mp hlen
        exact iff_of_true (by simp [ExecutionReport.Once.mk]) (by simp)
      | cons b answers =>
        rw [List.dropLast_cons_cons, List.forall_mem_cons, List.forall_mem_cons]
        refine iff_of_false (fun h => ?_) (fun h => hsucceeds h.1)
        obtain ⟨report, hreport⟩ := List.exists_mem_of_length_pos (l := reports) (by simp [hlen])
        have hone := (h.2 report hreport).performed
        rw [hnone report hreport] at hone
        cases hone

end OneShot

/-! ## The two functions -/

/-- A statement prepared on its own connection. -/
structure AdbcStatement where
  uri : String
  queryText : String
  deriving DecidableEq, Repr

/-- What binding a call of one of the functions can throw, with its text. -/
inductive FunctionBindError where
  | binder (message : String)
  | driver (message : String)
  deriving DecidableEq, Repr

/-- A bound call: its columns, and its bind data. -/
structure BoundFunction (α : Type) where
  returnTypes : List LogicalType
  names : List String
  data : α

/-- `AdbcExecuteFunctionData`. -/
structure AdbcExecuteFunctionData where
  statement : AdbcStatement
  finished : Bool := false

/-- `AdbcClearCacheFunctionData`. -/
structure AdbcClearCacheFunctionData where
  finished : Bool := false

/-- `AdbcExecuteBindFunction`.  The driver may refuse the URI or the query. -/
def adbcExecuteBindFunction (makeStatement : String → String → Except String AdbcStatement)
    (inputs : List String) :
    Except FunctionBindError (BoundFunction AdbcExecuteFunctionData) :=
  match inputs with
  | [uri, queryText] =>
    match makeStatement uri queryText with
    | .error message => .error (.driver message)
    | .ok statement => .ok ⟨[⟨"BOOLEAN"⟩], ["Success"], { statement := statement }⟩
  | _ => .error (.binder
      "adbc_execute(...) requires two parameters: (1) the adbc URI (2) the SQL query string")

/-- `AdbcClearCacheBindFunction`. -/
def adbcClearCacheBindFunction (inputs : List String) :
    Except FunctionBindError (BoundFunction AdbcClearCacheFunctionData) :=
  if inputs ≠ [] then .error (.binder "adbc_clear_cache() requires zero parameters")
  else .ok ⟨[⟨"BOOLEAN"⟩], ["Success"], {}⟩

/-- `AdbcStatementExecuteQuery`, with what the driver answers and the statements that have
reached it. -/
def executeQuery (statement : AdbcStatement) (answer : Except String Unit)
    (log : List AdbcStatement) : Except String Unit × List AdbcStatement :=
  (answer, log ++ [statement])

/-- `AdbcExecuteFunction`. -/
def adbcExecuteFunction (statement : AdbcStatement) (answer : Except String Unit) :
    SharedState (List AdbcStatement) →
      Except String (List Bool) × SharedState (List AdbcStatement) :=
  oneShot (executeQuery statement answer)

/-- The catalog of an attached database, which may be of another kind than this extension's. -/
inductive DatabaseCatalog where
  | adbc (catalog : AdbcCatalog)
  | other (catalogType : String)

/-- The loop over the databases, some of which may be detached. -/
def clearCaches (databases : List (Option DatabaseCatalog)) :
    Except String Unit × List (Option DatabaseCatalog) :=
  (.ok (), databases.map fun db => db.map fun
    | .adbc catalog => .adbc catalog.clearCache
    | .other catalogType => .other catalogType)

/-- `AdbcClearCacheFunction`. -/
def adbcClearCacheFunction : SharedState (List (Option DatabaseCatalog)) →
    Except String (List Bool) × SharedState (List (Option DatabaseCatalog)) :=
  oneShot clearCaches

/-- A bound call is not marked as finished: nothing has been executed for it. -/
theorem adbcExecuteBindFunction_finished
    {makeStatement : String → String → Except String AdbcStatement} {inputs : List String}
    {bound : BoundFunction AdbcExecuteFunctionData}
    (h : adbcExecuteBindFunction makeStatement inputs = .ok bound) :
    bound.data.finished = false := by
  revert h
  fun_cases adbcExecuteBindFunction makeStatement inputs with
  | case1 => intro h; cases h
  | case2 =>
    intro h
    obtain rfl := Except.ok.inj h
    rfl
  | case3 => intro h; cases h

theorem adbcClearCacheBindFunction_finished {inputs : List String}
    {bound : BoundFunction AdbcClearCacheFunctionData}
    (h : adbcClearCacheBindFunction inputs = .ok bound) : bound.data.finished = false := by
  rw [adbcClearCacheBindFunction] at h
  split at h
  · cases h
  · obtain rfl := Except.ok.inj h
    rfl

/-- **Which executions of a plan act.**  The executions of one bound `adbc_execute` act once each,
with one row if they succeed, if and only if the driver fails all of them but the last: after one
that has succeeded, no other acts.  Those of a bound `adbc_clear_cache` do only if there are no
two. -/
theorem effect_once_iff {makeStatement : String → String → Except String AdbcStatement}
    {inputs clearInputs : List String} {execute : BoundFunction AdbcExecuteFunctionData}
    (hexecute : adbcExecuteBindFunction makeStatement inputs = .ok execute)
    {clear : BoundFunction AdbcClearCacheFunctionData}
    (hclear : adbcClearCacheBindFunction clearInputs = .ok clear)
    (answers : List (Except String Unit)) (log : List AdbcStatement)
    (calls : List Unit) (databases : List (Option DatabaseCatalog)) (fuel : Nat) :
    (∃ reports, executions (adbcExecuteFunction execute.data.statement) (fuel + 2) answers
        ⟨execute.data.finished, log, 0⟩ = some reports ∧ reports.length = answers.length ∧
      ((∀ report ∈ reports, report.Once) ↔
        ∀ answer ∈ answers.dropLast, ∃ message, answer = .error message)) ∧
    ∃ reports, executions (fun _ => adbcClearCacheFunction) (fuel + 2) calls
        ⟨clear.data.finished, databases, 0⟩ = some reports ∧ reports.length = calls.length ∧
      ((∀ report ∈ reports, report.Once) ↔ calls.length ≤ 1) := by
  constructor
  · exact executions_once_iff (executeQuery execute.data.statement) (∃ message, · = .error message)
      (fun _ _ => Iff.rfl) fuel answers (adbcExecuteBindFunction_finished hexecute)
  · obtain ⟨reports, he, hlen, hiff⟩ := executions_once_iff (fun _ : Unit => clearCaches)
      (fun _ => False) (fun _ _ => ⟨fun ⟨_, h⟩ => (by cases h), False.elim⟩) fuel calls
      (s := ⟨clear.data.finished, databases, 0⟩) (adbcClearCacheBindFunction_finished hclear)
    refine ⟨reports, he, hlen, hiff.trans ?_⟩
    have hempty : (∀ call ∈ calls.dropLast, False) ↔ calls.dropLast = [] :=
      ⟨fun h => List.eq_nil_iff_forall_not_mem.mpr h, fun h => by simp [h]⟩
    rw [hempty, ← List.length_eq_zero_iff, List.length_dropLast]
    omega

/-- A prepared statement that fails when it is executed first, and then succeeds. -/
theorem retried_statement_once :
    ∃ reports, executions (adbcExecuteFunction ⟨"test", "DROP TABLE a"⟩) 2
        [.error "busy", .ok ()] ⟨false, [], 0⟩ = some reports ∧ reports.length = 2 ∧
      ∀ report ∈ reports, report.Once := by
  obtain ⟨⟨reports, he, hlen, hiff⟩, -⟩ :=
    @effect_once_iff (fun uri queryText => .ok ⟨uri, queryText⟩) ["test", "DROP TABLE a"] []
      _ rfl _ rfl [.error "busy", .ok ()] [] [] [] 0
  exact ⟨reports, he, hlen, hiff.mpr (by simp)⟩

/-- The second execution of a prepared statement is not sent to the driver, and has no row;
nor does a second `adbc_clear_cache` clear anything. -/
theorem second_execution_skipped :
    (executions (adbcExecuteFunction ⟨"test", "DROP TABLE a"⟩) 2 [.ok (), .ok ()] ⟨false, [], 0⟩ =
        some [⟨1, [[true], []], .ok ()⟩, ⟨0, [[]], .ok ()⟩] ∧
      executions (fun _ => adbcClearCacheFunction) 2 [(), ()] ⟨false, [], 0⟩ =
        some [⟨1, [[true], []], .ok ()⟩, ⟨0, [[]], .ok ()⟩]) ∧
    ¬ ∀ report ∈ ([⟨1, [[true], []], .ok ()⟩, ⟨0, [[]], .ok ()⟩] : List ExecutionReport),
      report.Once := by
  refine ⟨⟨rfl, rfl⟩, fun h => ?_⟩
  have hone := (h ⟨0, [[]], .ok ()⟩ (by simp)).performed
  cases hone

end AdbcClient
