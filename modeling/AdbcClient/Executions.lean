import AdbcClient.DriverSession
import AdbcClient.PhysicalPlan
import AdbcClient.QueryText

/-!
# What is executed

A driver executes a statement with what it has been told about it: the text of a query, options
and a stream (`adbc_scan.cpp`, `adbc_insert.cpp`, `adbc_schema_entry.cpp`).  `executionsOf` reads
this off a `Trace`.

The factory of a scan has one statement at a time and makes a new one, with a new text, for
each stream that is asked for (`scan_executions`).  An insert tells its statement the mode, the
schema and the table; one that creates its table does so before, on a statement of its own
(`insert_executions`).  In both cases the driver may refuse any call.
-/
namespace AdbcClient
open Runs ResourceTree DriverManager

namespace DriverManager

/-- What a driver keeps of a call. -/
def StatementFunction.Tells : StatementFunction → Bool
  | setSqlQuery _ | setOption _ _ | bindStream _ => true
  | executeSchema | executeQuery => false

/-- What a step tells the driver about a statement, if it accepts it. -/
def tells (s : Id) : Action × Reply → List StatementFunction
  | (.statementCall _ (some s') function, reply) =>
    if s' = s ∧ reply.isOk ∧ function.Tells then [function] else []
  | _ => []

/-- All that the driver has been told about a statement. -/
def told (s : Id) (t : Trace) : List StatementFunction := t.flatMap (tells s)

/-- What the driver has been told about the statement that a step executes. -/
def executed (t : Trace) : Action × Reply → List (List StatementFunction)
  | (.statementCall _ (some s) .executeQuery, _) => [told s t]
  | _ => []

/-- The executions of a run, each with what the driver had been told about its statement by then. -/
def executionsOf (t : Trace) : List (List StatementFunction) :=
  t.zipIdx.flatMap fun x => executed (t.take x.2) x.1

section Steps
variable {t : Trace} {s : Nat}

theorem told_append (s : Id) (t : Trace) (step : Action × Reply) :
    told s (t ++ [step]) = told s t ++ tells s step := by
  rw [told, List.flatMap_append, List.flatMap_cons, List.flatMap_nil, List.append_nil]
  rfl

theorem executionsOf_append (t : Trace) (step : Action × Reply) :
    executionsOf (t ++ [step]) = executionsOf t ++ executed t step := by
  have hbefore : ∀ x ∈ t.zipIdx,
      executed ((t ++ [step]).take x.2) x.1 = executed (t.take x.2) x.1 := by
    intro x hx
    have hlt : x.2 < t.length := (List.mem_zipIdx' hx).1
    rw [List.take_append_of_le_length (Nat.le_of_lt hlt)]
  rw [executionsOf, List.zipIdx_append, List.flatMap_append]
  congr 1
  · exact List.flatMap_congr hbefore
  · simp [List.take_left']

/-- Nothing has been told yet about statements that come later. -/
def Numbered (t : Trace) : Prop := ∀ s : Nat, t.length ≤ s → told s t = []

/-- Telling something about a statement is using it. -/
theorem tells_uses {step : Action × Reply} {function : StatementFunction}
    (h : function ∈ tells s step) (i : Id) : .used s ∈ step.1.events i step.2 := by
  obtain ⟨action, reply⟩ := step
  cases action with
  | statementCall driver statement f =>
    cases statement with
    | none => cases h
    | some s' =>
      rw [tells] at h
      by_cases hs : s' = s ∧ reply.isOk ∧ f.Tells
      · obtain ⟨rfl, -⟩ := hs
        simp [Action.events]
      · rw [if_neg hs] at h
        cases h
  | _ => cases h

/-- It is so in every run, since statements are used after they have been made. -/
theorem numbered_of_legal (h : Legal (events t)) : Numbered t := by
  intro s hs
  by_contra hne
  obtain ⟨function, hfunction⟩ := List.exists_mem_of_ne_nil _ hne
  obtain ⟨step, hstep, hfunction⟩ := List.mem_flatMap.mp hfunction
  obtain ⟨i, hi⟩ := List.mem_iff_getElem?.mp hstep
  have hused : .used s ∈ events t :=
    List.mem_flatMap.mpr ⟨(step, i), List.mk_mem_zipIdx_iff_getElem?.mpr hi,
      tells_uses hfunction i⟩
  obtain ⟨parent, hopened⟩ := h.opened_of_used hused
  have hlt : s < t.length := opened_lt hopened
  omega

/-- **What some steps have done**: these executions, and nothing about older statements. -/
structure Ran (t t' : Trace) (made : List (List StatementFunction)) : Prop where
  longer : t.length ≤ t'.length
  numbered : Numbered t → Numbered t'
  frame : ∀ s : Nat, s < t.length → told s t' = told s t
  executions : executionsOf t' = executionsOf t ++ made

theorem Ran.refl (t : Trace) : Ran t t [] :=
  ⟨Nat.le_refl _, id, fun _ _ => rfl, (List.append_nil _).symm⟩

variable {t' t'' : Trace} {made made' : List (List StatementFunction)}

theorem Ran.trans (h : Ran t t' made) (h' : Ran t' t'' made') : Ran t t'' (made ++ made') := by
  refine ⟨Nat.le_trans h.longer h'.longer, fun hn => h'.numbered (h.numbered hn), ?_, ?_⟩
  · intro s hs
    rw [h'.frame s (by have := h.longer; omega), h.frame s hs]
  · rw [h'.executions, h.executions, List.append_assoc]

/-- A step that tells the driver nothing. -/
theorem Ran.snoc (h : Ran t t' made) (step : Action × Reply) (hquiet : ∀ s, tells s step = []) :
    Ran t (t' ++ [step]) (made ++ executed t' step) := by
  refine ⟨?_, fun hn s hs => ?_, fun s hs => ?_, ?_⟩
  · rw [List.length_append]
    have := h.longer
    omega
  · rw [told_append, hquiet, List.append_nil]
    rw [List.length_append] at hs
    exact h.numbered hn s (by omega)
  · rw [told_append, hquiet, List.append_nil]
    exact h.frame s hs
  · rw [executionsOf_append, h.executions, List.append_assoc]

/-- A step that is no call of a statement. -/
theorem Ran.quiet (h : Ran t t' made) (step : Action × Reply) (hquiet : ∀ s, tells s step = [])
    (hnone : executed t' step = []) : Ran t (t' ++ [step]) made := by
  have hstep := h.snoc step hquiet
  rwa [hnone, List.append_nil] at hstep

/-- A call of a newer statement that does not execute it. -/
theorem Ran.tell (h : Ran t t' made) (driver : Id) (function : StatementFunction) (reply : Reply)
    (hs : t.length ≤ s) (hlt : s < t'.length) (hnone : function ≠ .executeQuery) :
    Ran t (t' ++ [(.statementCall driver (some s) function, reply)]) made := by
  have hother : ∀ r : Nat, r ≠ s → tells r (.statementCall driver (some s) function, reply) = [] := by
    intro r hr
    rw [tells, if_neg]
    rintro ⟨rfl, -⟩
    exact hr rfl
  refine ⟨?_, fun hn r hr => ?_, fun r hr => ?_, ?_⟩
  · rw [List.length_append]
    have := h.longer
    omega
  · rw [List.length_append] at hr
    rw [told_append, hother r (by omega), List.append_nil]
    exact h.numbered hn r (by omega)
  · rw [told_append, hother r (by omega), List.append_nil]
    exact h.frame r hr
  · rw [executionsOf_append, h.executions, List.append_assoc]
    congr 1
    cases function with
    | executeQuery => exact absurd rfl hnone
    | _ => exact List.append_nil made

/-! ## What was refused -/

/-- A reply that refuses a statement: the driver has not made it, or has not taken its text. -/
def refusesStatement : Action × Reply → Bool
  | (.statementNew _ _, reply) => !reply.isOk
  | (.statementCall _ _ (.setSqlQuery _), reply) => !reply.isOk
  | _ => false

/-- A reply that says that the driver cannot tell a schema without executing the query. -/
def schemaless : Action × Reply → Bool
  | (.statementCall _ _ .executeSchema, reply) => reply.status = .notImplemented
  | _ => false

/-- **What some steps were answered**: whether the driver has refused a statement in one of them,
and whether it could not tell a schema. -/
def Answered (t t' : Trace) (refused unknown : Bool) : Prop :=
  ∃ steps, t' = t ++ steps ∧ steps.any refusesStatement = refused ∧ steps.any schemaless = unknown

variable {refused unknown refused' unknown' : Bool}

theorem Answered.refl (t : Trace) : Answered t t false false :=
  ⟨[], (List.append_nil t).symm, rfl, rfl⟩

theorem Answered.trans (h : Answered t t' refused unknown)
    (h' : Answered t' t'' refused' unknown') :
    Answered t t'' (refused || refused') (unknown || unknown') := by
  obtain ⟨steps, rfl, rfl, rfl⟩ := h
  obtain ⟨steps', rfl, rfl, rfl⟩ := h'
  exact ⟨steps ++ steps', List.append_assoc .., List.any_append, List.any_append⟩

theorem Answered.step (t : Trace) {step : Action × Reply} (hrefused : refusesStatement step = refused)
    (hunknown : schemaless step = unknown) : Answered t (t ++ [step]) refused unknown :=
  ⟨[step], rfl, by simpa using hrefused, by simpa using hunknown⟩

theorem releaseStatement_answered {D : Drivers} (h : Answered t t' refused unknown)
    (statement : StatementHandle) : Answered t (releaseStatement D t' statement) refused unknown := by
  cases statement with
  | ready driver statement =>
    have hstep : Answered t' (releaseStatement D t' (.ready driver statement)) false false :=
      .step t' rfl rfl
    have hboth := h.trans hstep
    rwa [Bool.or_false, Bool.or_false] at hboth
  | zeroed => exact h
  | refused driver => exact h

end Steps

/-! ## Calls of a statement -/

/-- Calls of a statement, up to the first one that fails. -/
def calls (D : Drivers) : Trace → StatementHandle → List StatementFunction → Reply × Trace
  | t, _, [] => (.success, t)
  | t, statement, function :: functions =>
    let (reply, t) := adbcStatementCall D t statement function
    if reply.isOk then calls D t statement functions else (reply, t)

section Calls
variable {D : Drivers} {t t' : Trace} {s : Nat} {made : List (List StatementFunction)}

/-- What is told is kept, if it is accepted. -/
theorem told_call (driver : Id) {function : StatementFunction} (hfunction : function.Tells)
    {reply : Reply} (hok : reply.isOk) :
    told s (t ++ [(.statementCall driver (some s) function, reply)]) = told s t ++ [function] := by
  rw [told_append, tells, if_pos ⟨rfl, hok, hfunction⟩]

theorem adbcStatementCall_ready (D : Drivers) (t : Trace) (driver : LoadedDriver) (s : Nat)
    (function : StatementFunction) : adbcStatementCall D t (.ready driver s) function =
      perform D t (.statementCall driver.block (some s) function) := rfl

theorem calls_ran (driver : LoadedDriver) (h : Ran t t' made) (hs : t.length ≤ s) (hlt : s < t'.length)
    (functions : List StatementFunction) (hfunctions : ∀ f ∈ functions, f.Tells) :
    Ran t (calls D t' (.ready driver s) functions).2 made ∧
      s < (calls D t' (.ready driver s) functions).2.length ∧
      ((calls D t' (.ready driver s) functions).1.isOk →
        told s (calls D t' (.ready driver s) functions).2 = told s t' ++ functions) := by
  induction functions generalizing t' with
  | nil => exact ⟨h, hlt, fun _ => (List.append_nil _).symm⟩
  | cons function functions ih =>
    have hfunction := hfunctions function List.mem_cons_self
    have hnone : function ≠ .executeQuery := by
      rintro rfl
      cases hfunction
    have hstep := h.tell driver.block function
      (D.answer t' (.statementCall driver.block (some s) function)) hs hlt hnone
    rw [calls, adbcStatementCall_ready]
    simp only
    by_cases hok : (D.answer t' (.statementCall driver.block (some s) function)).isOk
    · rw [if_pos hok]
      obtain ⟨hran, hlonger, htold⟩ := ih hstep (by rw [List.length_append]; omega)
        fun f hf => hfunctions f (List.mem_cons_of_mem _ hf)
      refine ⟨hran, hlonger, fun hall => ?_⟩
      rw [htold hall, told_call _ hfunction hok, List.append_assoc]
      rfl
    · rw [if_neg hok]
      exact ⟨hstep, by rw [List.length_append]; omega, fun hall => absurd hall hok⟩

/-- **`AdbcStatementNew`**: nothing has been told about the statement yet. -/
theorem adbcStatementNew_ran (D : Drivers) (hn : Numbered t) (connection : ConnectionHandle) :
    Ran t (adbcStatementNew D t connection).2.2 [] ∧
      ((adbcStatementNew D t connection).1.isOk →
        (∃ driver, (adbcStatementNew D t connection).2.1 = .ready driver t.length) ∧
        t.length < (adbcStatementNew D t connection).2.2.length ∧
        told t.length (adbcStatementNew D t connection).2.2 = []) := by
  cases connection with
  | ready driver connection =>
    rw [adbcStatementNew]
    simp only
    refine ⟨(Ran.refl t).quiet _ (fun _ => rfl) rfl,
      fun hok => ⟨⟨driver, if_pos hok⟩, ?_, ?_⟩⟩
    · rw [List.length_append]
      exact Nat.lt_succ_self _
    · rw [told_append, hn _ (Nat.le_refl _)]
      rfl
  | zeroed =>
    refine ⟨.refl t, fun hok => ?_⟩
    cases hok
  | pending args temp =>
    refine ⟨.refl t, fun hok => ?_⟩
    cases hok

theorem releaseStatement_ran (h : Ran t t' made) (statement : StatementHandle) :
    Ran t (releaseStatement D t' statement) made := by
  cases statement with
  | ready driver statement => exact h.quiet _ (fun _ => rfl) rfl
  | zeroed => exact h
  | refused driver => exact h

/-- **`MakeStatement`**: the driver is told the text, about a new statement. -/
theorem makeStatement_ran (hn : Numbered t) (c : AdbcConnection) (queryText : List Char) :
    match c.makeStatement D t queryText with
    | (.ok statement, t') => Ran t t' [] ∧ ∃ (driver : LoadedDriver) (s : Nat), statement = .ready driver s ∧
        s < t'.length ∧ told s t' = [.setSqlQuery (cString queryText)]
    | (.error e, t') => Ran t t' [] ∧ ∃ message, e = .binder message := by
  obtain ⟨hran, hready⟩ := adbcStatementNew_ran D hn c.connection
  rw [AdbcConnection.makeStatement]
  generalize adbcStatementNew D t c.connection = result at hran hready ⊢
  obtain ⟨reply, statement, t₁⟩ := result
  simp only at hran hready ⊢
  by_cases hok : reply.isOk
  · rw [if_pos hok]
    obtain ⟨⟨driver, rfl⟩, hlt, htold⟩ := hready hok
    have htell := hran.tell driver.block (.setSqlQuery (cString queryText))
      (D.answer t₁ (.statementCall driver.block (some t.length) (.setSqlQuery (cString queryText))))
      (Nat.le_refl _) hlt (by simp)
    rw [adbcStatementCall_ready]
    simp only
    by_cases hset : (D.answer t₁
        (.statementCall driver.block (some t.length) (.setSqlQuery (cString queryText)))).isOk
    · rw [if_pos hset]
      refine ⟨htell, driver, t.length, rfl, by rw [List.length_append]; omega, ?_⟩
      rw [told_call _ rfl hset, htold]
      rfl
    · rw [if_neg hset]
      exact ⟨releaseStatement_ran htell _, _, rfl⟩
  · rw [if_neg hok]
    exact ⟨releaseStatement_ran hran _, _, rfl⟩

/-- A connection on which the driver has made statements. -/
def Connected (c : AdbcConnection) : Prop :=
  ∃ (driver : LoadedDriver) (connection : Id), c.connection = .ready driver connection

/-- On a connection it is the driver who has refused what `MakeStatement` throws for. -/
theorem makeStatement_answered {c : AdbcConnection} (h : Connected c) (queryText : List Char) :
    Answered t (c.makeStatement D t queryText).2 (!(c.makeStatement D t queryText).1.isOk)
      false := by
  obtain ⟨driver, connection, hready⟩ := h
  rw [AdbcConnection.makeStatement, hready, adbcStatementNew]
  simp only
  generalize hmade : D.answer t (.statementNew driver.block connection) = made
  have hnew : Answered t (t ++ [(.statementNew driver.block connection, made)]) (!made.isOk) false :=
    .step t rfl rfl
  by_cases hok : made.isOk
  · rw [if_pos hok, if_pos hok, adbcStatementCall_ready]
    simp only
    generalize D.answer _ (.statementCall driver.block (some t.length)
      (.setSqlQuery (cString queryText))) = told
    have htold : Answered (t ++ [(.statementNew driver.block connection, made)])
        (t ++ [(.statementNew driver.block connection, made)] ++ [(.statementCall driver.block
          (some t.length) (.setSqlQuery (cString queryText)), told)]) (!told.isOk) false :=
      .step _ rfl rfl
    have hset := hnew.trans htold
    rw [hok, Bool.not_true, Bool.false_or, Bool.false_or] at hset
    by_cases haccepted : told.isOk
    · rw [if_pos haccepted]
      rwa [haccepted] at hset
    · rw [if_neg haccepted]
      rw [Bool.eq_false_of_not_eq_true haccepted] at hset
      exact releaseStatement_answered (D := D) hset (.ready driver t.length)
  · rw [if_neg hok]
    rw [Bool.eq_false_of_not_eq_true hok] at hnew
    exact releaseStatement_answered hnew _

/-- Without a connection no statement is asked for. -/
theorem makeStatement_unconnected {c : AdbcConnection} (h : ¬ Connected c) (queryText : List Char) :
    ∃ e, c.makeStatement D t queryText = (.error e, t) := by
  rw [AdbcConnection.makeStatement]
  cases hconnection : c.connection with
  | ready driver connection => exact absurd ⟨driver, connection, hconnection⟩ h
  | zeroed => exact ⟨_, rfl⟩
  | pending args temp => exact ⟨_, rfl⟩

end Calls

end DriverManager

/-! ## Scans -/

/-- An `AdbcArrowStreamFactory` with its connection and its statement. -/
structure ScanStatement where
  factory : AdbcArrowStreamFactory
  connection : AdbcConnection
  statement : StatementHandle

namespace AdbcArrowStreamFactory

/-- The text of the query for some columns. -/
def queryFor (factory : AdbcArrowStreamFactory) (columns : List String) : String :=
  (factory.applyProjectionPushdown columns).queryText

/-- A text takes the place of the one for other columns. -/
theorem pushdown_again (factory : AdbcArrowStreamFactory) (columns columns' : List String) :
    (factory.applyProjectionPushdown columns).queryFor columns' = factory.queryFor columns' ∧
      (factory.applyProjectionPushdown columns).projectionPushdown =
        factory.projectionPushdown := by
  obtain ⟨queryText, table, delimiter, projectionPushdown⟩ := factory
  cases projectionPushdown <;> cases delimiter <;> exact ⟨rfl, rfl⟩

/-- Without projections there is one text, whatever columns are asked for. -/
theorem queryFor_of_not {factory : AdbcArrowStreamFactory} (h : ¬ factory.projectionPushdown)
    (columns : List String) : factory.queryFor columns = factory.queryText := by
  obtain ⟨queryText, table, delimiter, projectionPushdown⟩ := factory
  obtain rfl : projectionPushdown = false := by simpa using h
  rfl

end AdbcArrowStreamFactory

namespace ScanStatement

/-- The constructors of the factory, which make its first statement. -/
def construct (D : Drivers) (t : Trace) (factory : AdbcArrowStreamFactory)
    (connection : AdbcConnection) : Except Exception ScanStatement × Trace :=
  match connection.makeStatement D t factory.queryText.toList with
  | (.ok statement, t) => (.ok ⟨factory, connection, statement⟩, t)
  | (.error e, t) => (.error e, t)

/-- `ResetStatement`. -/
def resetStatement (D : Drivers) (t : Trace) (scan : ScanStatement) :
    Except Exception Unit × ScanStatement × Trace :=
  match scan.connection.makeStatement D t scan.factory.queryText.toList with
  | (.ok statement, t) =>
    (.ok (), { scan with statement := statement }, releaseStatement D t scan.statement)
  | (.error e, t) => (.error e, scan, t)

/-- `ApplyProjectionPushdown`.  If the statement is refused, the text is the new one, and the
statement the old one. -/
def applyProjectionPushdown (D : Drivers) (t : Trace) (scan : ScanStatement)
    (columns : List String) : Except Exception Unit × ScanStatement × Trace :=
  if scan.factory.projectionPushdown then
    resetStatement D t { scan with factory := scan.factory.applyProjectionPushdown columns }
  else (.ok (), scan, t)

/-- `GetSchema`.  `readable` says whether the stream of the executed query has a schema. -/
def getSchema (D : Drivers) (readable : Trace → Bool) (t : Trace) (scan : ScanStatement) :
    Except Exception Unit × ScanStatement × Trace :=
  let (reply, t) := adbcStatementCall D t scan.statement .executeSchema
  if reply.status = .notImplemented then
    let (reply, t) := adbcStatementCall D t scan.statement .executeQuery
    if reply.isOk then
      if readable t then resetStatement D t scan
      else (.error (.binder "Failed to get schema from ADBC stream"), scan, t)
    else (.error (.binder reply.text), scan, t)
  else (checkAdbc reply .binder, scan, t)

/-- `ProduceStream`. -/
def produceStream (D : Drivers) (t : Trace) (scan : ScanStatement) (columns : List String) :
    Except Exception Unit × ScanStatement × Trace :=
  match applyProjectionPushdown D t scan columns with
  | (.error e, scan, t) => (.error e, scan, t)
  | (.ok _, scan, t) =>
    let (reply, t) := adbcStatementCall D t scan.statement .executeQuery
    (checkAdbc reply .io, scan, t)

/-- What a bind asks the driver for: the factory is constructed, and asks for the schema. -/
def bindScan (D : Drivers) (readable : Trace → Bool) (t : Trace) (factory : AdbcArrowStreamFactory)
    (connection : AdbcConnection) : Except Exception ScanStatement × Trace :=
  match construct D t factory connection with
  | (.error e, t) => (.error e, t)
  | (.ok scan, t) =>
    match getSchema D readable t scan with
    | (.error e, _, t) => (.error e, t)
    | (.ok _, scan, t) => (.ok scan, t)

/-- Streams that are asked for one after the other. -/
def produce (D : Drivers) : ScanStatement × Trace → List (List String) → ScanStatement × Trace :=
  run fun s columns => (produceStream D s.2 s.1 columns).2

/-- A scan: streams are asked for, any number of times and with any columns, if the bind has
succeeded. -/
def runScan (D : Drivers) (readable : Trace → Bool) (t : Trace) (factory : AdbcArrowStreamFactory)
    (connection : AdbcConnection) (requests : List (List String)) : Trace :=
  match bindScan D readable t factory connection with
  | (.error _, t) => t
  | (.ok bound, t) => (produce D (bound, t) requests).2

section Scans
variable {D : Drivers} {t t' : Trace} {made : List (List StatementFunction)}

/-- A statement that was told a text and nothing else. -/
def Holds (t : Trace) (statement : StatementHandle) (text : String) : Prop :=
  ∃ (driver : LoadedDriver) (s : Nat), statement = .ready driver s ∧ s < t.length ∧
    told s t = [.setSqlQuery (cString text.toList)]

theorem told_release (s : Nat) (t : Trace) (statement : StatementHandle) :
    told s (releaseStatement D t statement) = told s t := by
  cases statement with
  | ready driver s' => exact (told_append s t _).trans (List.append_nil _)
  | zeroed => rfl
  | refused driver => rfl

theorem Holds.release {statement : StatementHandle} {text : String} (h : Holds t statement text)
    (old : StatementHandle) : Holds (releaseStatement D t old) statement text := by
  obtain ⟨driver, s, rfl, hlt, htold⟩ := h
  refine ⟨driver, s, rfl, ?_, by rw [told_release, htold]⟩
  have hlonger := (releaseStatement_ran (D := D) (Ran.refl t) old).longer
  omega

/-- **Resetting** the statement executes nothing, and the new statement has the text of the
factory. -/
theorem resetStatement_ran (hn : Numbered t) (scan : ScanStatement) :
    match resetStatement D t scan with
    | (.ok _, scan', t') => Ran t t' [] ∧ scan'.factory = scan.factory ∧
        Holds t' scan'.statement scan.factory.queryText
    | (.error e, scan', t') => Ran t t' [] ∧ scan' = scan ∧ ∃ message, e = .binder message := by
  have hmake := makeStatement_ran (D := D) hn scan.connection scan.factory.queryText.toList
  rw [resetStatement]
  generalize scan.connection.makeStatement D t scan.factory.queryText.toList = result at hmake ⊢
  obtain ⟨e | statement, t₁⟩ := result
  · exact ⟨hmake.1, rfl, hmake.2⟩
  · obtain ⟨hran, hholds⟩ := hmake
    exact ⟨releaseStatement_ran hran _, rfl, Holds.release hholds _⟩

/-- A statement is reset on the connection that the scan has. -/
theorem resetStatement_answered (scan : ScanStatement) (h : Connected scan.connection) :
    Answered t (resetStatement D t scan).2.2 (!(resetStatement D t scan).1.isOk) false ∧
      (resetStatement D t scan).2.1.connection = scan.connection := by
  have hmake := makeStatement_answered (D := D) (t := t) h scan.factory.queryText.toList
  rw [resetStatement]
  generalize scan.connection.makeStatement D t scan.factory.queryText.toList = result at hmake ⊢
  obtain ⟨e | statement, t₁⟩ := result
  · exact ⟨hmake, rfl⟩
  · exact ⟨releaseStatement_answered hmake _, rfl⟩

/-- A call that tells the driver nothing. -/
theorem Holds.call {statement : StatementHandle} {text : String} (h : Holds t statement text)
    (function : StatementFunction) (hfunction : function.Tells = false)
    (made : List (List StatementFunction))
    (hmade : ∀ driver s reply, told s t = [.setSqlQuery (cString text.toList)] →
      executed t (.statementCall driver (some s) function, reply) = made) :
    Ran t (adbcStatementCall D t statement function).2 made ∧
      Holds (adbcStatementCall D t statement function).2 statement text := by
  obtain ⟨driver, s, rfl, hlt, htold⟩ := h
  rw [adbcStatementCall_ready]
  have hquiet : ∀ r reply, tells r (.statementCall driver.block (some s) function, reply) = [] := by
    intro r reply
    rw [tells, if_neg]
    rintro ⟨-, -, htells⟩
    rw [hfunction] at htells
    cases htells
  have hran := (Ran.refl t).snoc (.statementCall driver.block (some s) function,
    D.answer t (.statementCall driver.block (some s) function)) fun r => hquiet r _
  refine ⟨?_, driver, s, rfl, ?_, ?_⟩
  · rw [← hmade driver.block s _ htold]
    exact hran
  · rw [List.length_append]
    omega
  · rw [told_append, hquiet, List.append_nil, htold]

/-- **Executing** a statement executes the text that it holds, which it still holds after that. -/
theorem Holds.execute {statement : StatementHandle} {text : String} (h : Holds t statement text) :
    Ran t (adbcStatementCall D t statement .executeQuery).2
        [[.setSqlQuery (cString text.toList)]] ∧
      Holds (adbcStatementCall D t statement .executeQuery).2 statement text :=
  h.call .executeQuery rfl _ fun _ _ _ htold => congrArg (fun functions => [functions]) htold

theorem Holds.answered {statement : StatementHandle} {text : String} (h : Holds t statement text)
    (function : StatementFunction) : ∃ (driver s : Id),
      Answered t (adbcStatementCall D t statement function).2
        (refusesStatement (.statementCall driver (some s) function, (adbcStatementCall D t statement function).1))
        (schemaless (.statementCall driver (some s) function,
          (adbcStatementCall D t statement function).1)) := by
  obtain ⟨driver, s, rfl, -, -⟩ := h
  exact ⟨driver.block, s, .step t rfl rfl⟩

/-- **Between two requests**: the texts are those of the factory that the scan began with.  If
the statement is not replaced, it has the one text there is. -/
structure Prepared (factory : AdbcArrowStreamFactory) (t : Trace) (scan : ScanStatement) : Prop where
  numbered : Numbered t
  connected : Connected scan.connection
  texts : ∀ columns, scan.factory.queryFor columns = factory.queryFor columns
  pushdown : scan.factory.projectionPushdown = factory.projectionPushdown
  kept : ¬ factory.projectionPushdown → Holds t scan.statement factory.queryText

/-- What a driver is told for a query. -/
def textOf (factory : AdbcArrowStreamFactory) (columns : List String) : List StatementFunction :=
  [.setSqlQuery (cString (factory.queryFor columns).toList)]

variable {factory : AdbcArrowStreamFactory} {scan : ScanStatement}

theorem applyProjectionPushdown_ran (h : Prepared factory t scan) (columns : List String) :
    match applyProjectionPushdown D t scan columns with
    | (.ok _, scan', t') => Ran t t' [] ∧ Answered t t' false false ∧ Prepared factory t' scan' ∧
        Holds t' scan'.statement (factory.queryFor columns)
    | (.error _, scan', t') => Ran t t' [] ∧ Answered t t' true false ∧
        Prepared factory t' scan' := by
  rw [applyProjectionPushdown]
  by_cases hpushdown : scan.factory.projectionPushdown
  · rw [if_pos hpushdown]
    have hreset := resetStatement_ran (D := D) h.numbered
      { scan with factory := scan.factory.applyProjectionPushdown columns }
    have hanswered := resetStatement_answered (D := D) (t := t)
      { scan with factory := scan.factory.applyProjectionPushdown columns } h.connected
    have hprepared : ∀ {t'} (connection : AdbcConnection) (statement : StatementHandle),
        Ran t t' [] → Connected connection → Prepared factory t'
          ⟨scan.factory.applyProjectionPushdown columns, connection, statement⟩ := by
      intro t' connection statement hran hconnected
      -- columns that were pushed down before leave nothing in the text
      refine ⟨hran.numbered h.numbered, hconnected, fun columns' => ?_, ?_, fun hnot => ?_⟩
      · rw [(scan.factory.pushdown_again columns columns').1, h.texts]
      · rw [(scan.factory.pushdown_again columns columns).2, h.pushdown]
      · rw [← h.pushdown] at hnot
        exact absurd hpushdown hnot
    generalize resetStatement D t
      { scan with factory := scan.factory.applyProjectionPushdown columns } = result
      at hreset hanswered ⊢
    obtain ⟨e | u, scan', t'⟩ := result
    · obtain ⟨hran, rfl, -⟩ := hreset
      exact ⟨hran, hanswered.1, hprepared _ _ hran h.connected⟩
    · obtain ⟨hran, hfactory, hholds⟩ := hreset
      obtain ⟨factory', connection, statement⟩ := scan'
      obtain rfl := hfactory
      obtain ⟨hanswered, rfl⟩ := hanswered
      refine ⟨hran, hanswered, hprepared _ statement hran h.connected, ?_⟩
      rw [← h.texts]
      exact hholds
  · rw [if_neg hpushdown]
    have hnot : ¬ factory.projectionPushdown := by rwa [← h.pushdown]
    refine ⟨.refl t, .refl t, h, ?_⟩
    rw [AdbcArrowStreamFactory.queryFor_of_not hnot]
    exact h.kept hnot

/-- **One request**: the query is executed unless its statement is refused. -/
theorem produceStream_ran (h : Prepared factory t scan) (columns : List String) :
    match produceStream D t scan columns with
    | (_, scan', t') => Prepared factory t' scan' ∧ ∃ steps, t' = t ++ steps ∧
        Ran t t' (if steps.any refusesStatement then [] else [textOf factory columns]) := by
  have hpushdown := applyProjectionPushdown_ran (D := D) h columns
  rw [produceStream]
  generalize applyProjectionPushdown D t scan columns = result at hpushdown ⊢
  obtain ⟨e | u, scan', t'⟩ := result
  · obtain ⟨hran, ⟨steps, hsteps, hrefused, -⟩, hprepared⟩ := hpushdown
    refine ⟨hprepared, steps, hsteps, ?_⟩
    rw [hrefused]
    exact hran
  · obtain ⟨hran, hanswered, hprepared, hholds⟩ := hpushdown
    obtain ⟨hexecuted, hafter⟩ := hholds.execute (D := D)
    obtain ⟨driver, s, hcall⟩ := hholds.answered (D := D) .executeQuery
    simp only
    generalize adbcStatementCall D t' scan'.statement .executeQuery = called
      at hexecuted hafter hcall ⊢
    obtain ⟨reply, t''⟩ := called
    obtain ⟨steps, hsteps, hrefused, -⟩ := hanswered.trans hcall
    refine ⟨⟨hexecuted.numbered hprepared.numbered, hprepared.connected, hprepared.texts,
      hprepared.pushdown, fun hnot => ?_⟩, steps, hsteps, ?_⟩
    · rw [AdbcArrowStreamFactory.queryFor_of_not hnot] at hafter
      exact hafter
    · rw [hrefused]
      exact hran.trans hexecuted

/-- **The schema** costs an execution if the driver cannot tell it otherwise. -/
theorem getSchema_ran (scan : ScanStatement) (hconnected : Connected scan.connection)
    (hn : Numbered t) (hholds : Holds t scan.statement scan.factory.queryText)
    (readable : Trace → Bool) :
    match getSchema D readable t scan with
    | (result, scan', t') => (result.isOk → Prepared scan.factory t' scan') ∧
        ∃ steps, t' = t ++ steps ∧ Ran t t' (if steps.any schemaless then
          [[.setSqlQuery (cString scan.factory.queryText.toList)]] else []) := by
  obtain ⟨hasked, hafter⟩ := hholds.call (D := D) .executeSchema rfl []
    fun _ _ _ _ => rfl
  obtain ⟨driver, s, hanswered⟩ := hholds.answered (D := D) .executeSchema
  rw [getSchema]
  generalize adbcStatementCall D t scan.statement .executeSchema = called
    at hasked hafter hanswered ⊢
  obtain ⟨reply, t₁⟩ := called
  simp only at hasked hafter hanswered ⊢
  by_cases hnot : reply.status = .notImplemented
  · rw [if_pos hnot]
    -- the query is executed for its schema, and its statement is made again
    obtain ⟨hexecuted, -⟩ := hafter.execute (D := D)
    obtain ⟨driver', s', hcall⟩ := hafter.answered (D := D) .executeQuery
    generalize adbcStatementCall D t₁ scan.statement .executeQuery = called
      at hexecuted hcall ⊢
    obtain ⟨reply', t₂⟩ := called
    have hran := hasked.trans hexecuted
    have htwo : ∀ {t₃ refused}, Answered t₂ t₃ refused false → Ran t₂ t₃ [] →
        ∃ steps, t₃ = t ++ steps ∧ Ran t t₃ (if steps.any schemaless then
          [[.setSqlQuery (cString scan.factory.queryText.toList)]] else []) := by
      intro t₃ refused hlater hquiet
      obtain ⟨steps, hsteps, -, hunknown⟩ := (hanswered.trans hcall).trans hlater
      refine ⟨steps, hsteps, ?_⟩
      rw [hunknown, schemaless, decide_eq_true hnot]
      exact hran.trans hquiet
    simp only
    by_cases hok : reply'.isOk
    · rw [if_pos hok]
      by_cases hreadable : readable t₂
      · rw [if_pos hreadable]
        have hreset := resetStatement_ran (D := D) (hran.numbered hn) scan
        have hagain := resetStatement_answered (D := D) (t := t₂) scan hconnected
        generalize resetStatement D t₂ scan = result at hreset hagain ⊢
        obtain ⟨e | u, scan', t₃⟩ := result
        · exact ⟨fun h => (by cases h), htwo hagain.1 hreset.1⟩
        · obtain ⟨hreset, hfactory, hholds'⟩ := hreset
          obtain ⟨hagain, hsame⟩ := hagain
          simp only at hsame
          refine ⟨fun _ => ⟨hreset.numbered (hran.numbered hn), hsame ▸ hconnected, ?_, ?_,
            fun _ => hholds'⟩, htwo hagain hreset⟩
          · intro columns
            rw [hfactory]
          · rw [hfactory]
      · rw [if_neg hreadable]
        exact ⟨fun h => (by cases h), htwo (.refl t₂) (.refl t₂)⟩
    · rw [if_neg hok]
      exact ⟨fun h => (by cases h), htwo (.refl t₂) (.refl t₂)⟩
  · rw [if_neg hnot]
    obtain ⟨steps, hsteps, -, hunknown⟩ := hanswered
    refine ⟨fun _ => ⟨hasked.numbered hn, hconnected, fun _ => rfl, rfl, fun _ => hafter⟩,
      steps, hsteps, ?_⟩
    rw [hunknown, schemaless, decide_eq_false hnot]
    exact hasked

/-- **The bind**: it executes the query if the driver asks for that, and leaves a scan that is
prepared. -/
theorem bindScan_ran (hn : Numbered t) (factory : AdbcArrowStreamFactory)
    (connection : AdbcConnection) (readable : Trace → Bool) :
    match bindScan D readable t factory connection with
    | (result, t') => (∀ bound, result = .ok bound → Prepared factory t' bound) ∧
        ∃ steps, t' = t ++ steps ∧ Ran t t' (if steps.any schemaless then
          [[.setSqlQuery (cString factory.queryText.toList)]] else []) := by
  rw [bindScan, construct]
  by_cases hconnected : Connected connection
  · have hmake := makeStatement_ran (D := D) hn connection factory.queryText.toList
    have hanswered := makeStatement_answered (D := D) (t := t) hconnected factory.queryText.toList
    generalize connection.makeStatement D t factory.queryText.toList = result at hmake hanswered ⊢
    obtain ⟨e | statement, t₁⟩ := result
    · obtain ⟨steps, hsteps, -, hunknown⟩ := hanswered
      refine ⟨fun _ h => (by cases h), steps, hsteps, ?_⟩
      rw [hunknown]
      exact hmake.1
    · obtain ⟨hran, hholds⟩ := hmake
      obtain ⟨before, hbefore, -, hunknown⟩ := hanswered
      simp only at hbefore
      have hschema := getSchema_ran (D := D) ⟨factory, connection, statement⟩ hconnected
        (hran.numbered hn) hholds readable
      simp only
      generalize getSchema D readable t₁ ⟨factory, connection, statement⟩ = result at hschema ⊢
      obtain ⟨result, bound, t₂⟩ := result
      obtain ⟨hprepared, steps, hsteps, hschema⟩ := hschema
      have hboth : ∃ steps, t₂ = t ++ steps ∧ Ran t t₂ (if steps.any schemaless then
          [[.setSqlQuery (cString factory.queryText.toList)]] else []) := by
        refine ⟨before ++ steps, ?_, ?_⟩
        · rw [← List.append_assoc, ← hbefore]
          exact hsteps
        · rw [List.any_append, hunknown]
          exact hran.trans hschema
      cases result with
      | error e => exact ⟨fun _ h => (by cases h), hboth⟩
      | ok u => exact ⟨fun _ h => Except.ok.inj h ▸ hprepared rfl, hboth⟩
  · obtain ⟨e, hmake⟩ := makeStatement_unconnected (D := D) (t := t) hconnected
      factory.queryText.toList
    rw [hmake]
    exact ⟨fun _ h => (by cases h), [], (List.append_nil t).symm, .refl t⟩

/-- **Any number of requests**: each has its steps, and those that the driver does not refuse
execute their text. -/
theorem produce_ran (h : Prepared factory t scan) (requests : List (List String)) :
    ∃ streams : List (List String × Trace), streams.map Prod.fst = requests ∧
      (produce D (scan, t) requests).2 = t ++ streams.flatMap Prod.snd ∧
      executionsOf (produce D (scan, t) requests).2 = executionsOf t ++
        (streams.filter fun stream => !stream.2.any refusesStatement).map
          fun stream => textOf factory stream.1 := by
  induction requests generalizing t scan with
  | nil => exact ⟨[], rfl, (List.append_nil t).symm, (List.append_nil _).symm⟩
  | cons columns requests ih =>
    have hone := produceStream_ran (D := D) h columns
    have hnext : produce D (scan, t) (columns :: requests) =
        produce D (produceStream D t scan columns).2 requests := rfl
    rw [hnext]
    generalize produceStream D t scan columns = result at hone ⊢
    obtain ⟨result, scan', t'⟩ := result
    obtain ⟨hprepared, steps, hsteps, hran⟩ := hone
    obtain ⟨streams, hrequests, htrace, hstreams⟩ := ih hprepared
    refine ⟨(columns, steps) :: streams, congrArg (columns :: ·) hrequests, ?_, ?_⟩
    · refine htrace.trans ?_
      rw [hsteps, List.flatMap_cons, List.append_assoc]
    · refine hstreams.trans ?_
      rw [hran.executions, List.append_assoc]
      congr 1
      by_cases hrefused : steps.any refusesStatement
      · rw [if_pos hrefused, List.filter_cons_of_neg (by simp [hrefused])]
        rfl
      · rw [if_neg hrefused, List.filter_cons_of_pos (by simpa using hrefused), List.map_cons]
        rfl

/-- **The executions of a scan**, whatever the driver replies: one for the schema if and only if
the driver cannot tell it otherwise, and one for each stream that is asked for after the bind and
whose statement the driver does not refuse.  Each has the text for its columns, and the driver was
told nothing else for it. -/
theorem scan_executions (hlegal : Legal (events t)) (factory : AdbcArrowStreamFactory)
    (connection : AdbcConnection) (readable : Trace → Bool) (requests : List (List String)) :
    ∃ (steps : Trace) (streams : List (List String × Trace)),
      (bindScan D readable t factory connection).2 = t ++ steps ∧
      runScan D readable t factory connection requests =
        t ++ steps ++ streams.flatMap Prod.snd ∧
      streams.map Prod.fst =
        (if (bindScan D readable t factory connection).1.isOk then requests else []) ∧
      executionsOf (runScan D readable t factory connection requests) = executionsOf t ++
        (if steps.any schemaless then [[.setSqlQuery (cString factory.queryText.toList)]] else []) ++
          (streams.filter fun stream => !stream.2.any refusesStatement).map
            fun stream => textOf factory stream.1 := by
  have hbind := bindScan_ran (D := D) (numbered_of_legal hlegal) factory connection readable
  rw [runScan]
  generalize bindScan D readable t factory connection = result at hbind ⊢
  obtain ⟨result, t'⟩ := result
  obtain ⟨hprepared, steps, hsteps, hran⟩ := hbind
  cases result with
  | error e =>
    refine ⟨steps, [], hsteps, ?_, rfl, ?_⟩
    · rw [List.flatMap_nil, List.append_nil]
      exact hsteps
    · rw [List.filter_nil, List.map_nil, List.append_nil]
      exact hran.executions
  | ok bound =>
    obtain ⟨streams, hrequests, htrace, hstreams⟩ := produce_ran (D := D) (hprepared _ rfl) requests
    refine ⟨steps, streams, hsteps, ?_, hrequests, ?_⟩
    · rw [← hsteps]
      exact htrace
    · rw [← hran.executions]
      exact hstreams

end Scans

/-- A driver without `ExecuteSchema`, which does not know the column `b`. -/
def withoutSchema : Drivers :=
  { DriverSession.agreeable with
    answer := fun _ action => match action with
      | .statementCall _ _ .executeSchema => ⟨.notImplemented, none⟩
      | .statementCall _ _ (.setSqlQuery text) =>
        if 'b' ∈ text then ⟨.notFound, some "no such column"⟩ else .success
      | _ => .success }

/-- What it has made for a connection, and the steps of that. -/
def listing : AdbcConnection := ⟨.ready ⟨1, true⟩ 3, .ready ⟨1, true⟩ 9⟩

/-- A table of the driver, with double quotes as the delimiters. -/
def listed : AdbcArrowStreamFactory := .ofTable "t" ⟨'"', '"'⟩

/-- One execution for the schema and two for the three streams: the driver refuses the text of the
second. -/
theorem listed_executions :
    (∃ (steps : Trace) (streams : List (List String × Trace)),
      streams.map Prod.fst = [["a"], ["b"], []] ∧
      executionsOf (runScan withoutSchema (fun _ => true) [] listed listing [["a"], ["b"], []]) =
        [] ++ (if steps.any schemaless then [[.setSqlQuery (cString listed.queryText.toList)]] else []) ++
          (streams.filter fun stream => !stream.2.any refusesStatement).map
            fun stream => textOf listed stream.1) ∧
      executionsOf (runScan withoutSchema (fun _ => true) [] listed listing [["a"], ["b"], []]) =
        [[.setSqlQuery "SELECT * FROM t".toList], [.setSqlQuery "SELECT \"a\" FROM t".toList],
          [.setSqlQuery "SELECT 1  FROM t".toList]] := by
  obtain ⟨steps, streams, -, -, hrequests, hexecutions⟩ := scan_executions (D := withoutSchema)
    (t := []) trivial listed listing (fun _ => true) [["a"], ["b"], []]
  exact ⟨⟨steps, streams, hrequests, hexecutions⟩, rfl⟩

end ScanStatement

/-! ## Inserts -/

namespace Ingest

/-- A statement that is told something and executed, and is destroyed at the end. -/
def ingest (D : Drivers) (t : Trace) (connection : ConnectionHandle)
    (functions : List StatementFunction) : Reply × Trace :=
  let (reply, statement, t) := adbcStatementNew D t connection
  if reply.isOk then
    let (reply, t) := calls D t statement functions
    if reply.isOk then
      let (reply, t) := adbcStatementCall D t statement .executeQuery
      (reply, releaseStatement D t statement)
    else (reply, releaseStatement D t statement)
  else (reply, releaseStatement D t statement)

/-- `ADBC_INGEST_OPTION_MODE_APPEND`. -/
def appendMode : StatementFunction :=
  .setOption "adbc.ingest.mode".toList "adbc.ingest.mode.append".toList

/-- `ADBC_INGEST_OPTION_TARGET_DB_SCHEMA`, unless the schema has no name, and
`ADBC_INGEST_OPTION_TARGET_TABLE`. -/
def target (schemaName tableName : String) : List StatementFunction :=
  (if schemaName = "" then []
    else [.setOption "adbc.ingest.target_db_schema".toList (cString schemaName.toList)]) ++
  [.setOption "adbc.ingest.target_table".toList (cString tableName.toList)]

/-- The stream with which a table is created: it has the schema of the table and no rows. -/
def schemaStream (insert : AdbcInsert) : IngestStream :=
  ⟨insert.columnTypes, insert.columnNames, .none⟩

/-- `CreateArrowStreamFromCollection`: the schema, and the rows that are buffered. -/
def collectionStream (insert : AdbcInsert) : IngestStream :=
  ⟨insert.columnTypes, insert.columnNames, .buffered⟩

/-- What the driver is told to create a table. -/
def creation (insert : AdbcInsert) : List StatementFunction :=
  target insert.schemaName insert.tableName ++ [.bindStream (schemaStream insert)]

/-- What it is told to append rows. -/
def appending (insert : AdbcInsert) : List StatementFunction :=
  appendMode ::
    (target insert.schemaName insert.tableName ++ [.bindStream (collectionStream insert)])

/-- `GetGlobalSinkState`, with its connection, on which a table is created in create mode. -/
def getGlobalSinkState (D : Drivers) (t : Trace) (connection : ConnectionHandle)
    (insert : AdbcInsert) : Except Exception Unit × Trace :=
  match insert.insertMode with
  | .append => (.ok (), t)
  | .ctas =>
    let (reply, t) := ingest D t connection (creation insert)
    (checkAdbc reply .io, t)

/-- `AsyncInsert`. -/
def asyncInsert (D : Drivers) (t : Trace) (connection : ConnectionHandle) (insert : AdbcInsert) :
    Reply × Trace :=
  ingest D t connection (appending insert)

/-- An insert: what it throws or the status of its thread, which starts with the first chunk. -/
def execute (D : Drivers) (t : Trace) (connection : ConnectionHandle) (insert : AdbcInsert)
    (anyChunk : Bool) : Except Exception Reply × Trace :=
  match getGlobalSinkState D t connection insert with
  | (.error e, t) => (.error e, t)
  | (.ok _, t) =>
    if anyChunk then
      let (reply, t) := asyncInsert D t connection insert
      (.ok reply, t)
    else (.ok .success, t)

section Inserts
variable {D : Drivers} {t : Trace}

/-- **An ingest** executes its statement once, with all that it was told, or not at all, and
then it has failed. -/
theorem ingest_ran (hn : Numbered t) (connection : ConnectionHandle) (functions : List StatementFunction)
    (hfunctions : ∀ f ∈ functions, f.Tells) :
    ∃ attempted, Ran t (ingest D t connection functions).2 attempted ∧
      attempted <+: [functions] ∧
      ((ingest D t connection functions).1.isOk → attempted = [functions]) := by
  obtain ⟨hran, hready⟩ := adbcStatementNew_ran D hn connection
  rw [ingest]
  generalize adbcStatementNew D t connection = result at hran hready ⊢
  obtain ⟨reply, statement, t₁⟩ := result
  simp only at hran hready ⊢
  by_cases hok : reply.isOk
  · rw [if_pos hok]
    obtain ⟨⟨driver, rfl⟩, hlt, htold⟩ := hready hok
    obtain ⟨hcalls, hlonger, hall⟩ :=
      calls_ran (D := D) driver hran (Nat.le_refl _) hlt functions hfunctions
    generalize calls D t₁ (.ready driver t.length) functions = result at hcalls hlonger hall ⊢
    obtain ⟨reply, t₂⟩ := result
    simp only at hcalls hlonger hall ⊢
    by_cases hok : reply.isOk
    · rw [if_pos hok, adbcStatementCall_ready]
      have hquiet : ∀ r reply,
          tells r (.statementCall driver.block (some t.length) .executeQuery, reply) = [] :=
        fun r reply => if_neg fun hall => Bool.noConfusion hall.2.2
      have hexecuted := hcalls.snoc (.statementCall driver.block (some t.length) .executeQuery,
        D.answer t₂ (.statementCall driver.block (some t.length) .executeQuery))
        fun r => hquiet r _
      have htold' : told t.length t₂ = functions := by rw [hall hok, htold, List.nil_append]
      refine ⟨[told t.length t₂], releaseStatement_ran (D := D) hexecuted (.ready driver t.length),
        ?_, fun _ => ?_⟩
      · rw [htold']
      · rw [htold']
    · rw [if_neg hok]
      exact ⟨[], releaseStatement_ran (D := D) hcalls (.ready driver t.length), List.nil_prefix,
        fun h => absurd h hok⟩
  · rw [if_neg hok]
    exact ⟨[], releaseStatement_ran (D := D) hran statement, List.nil_prefix,
      fun h => absurd h hok⟩

theorem target_tells (schemaName tableName : String) (stream : IngestStream) :
    ∀ f ∈ target schemaName tableName ++ [.bindStream stream], f.Tells := by
  intro f hf
  rw [target] at hf
  split at hf <;> simp only [List.mem_append, List.mem_cons, List.not_mem_nil, or_false] at hf
  · rcases hf with (hnone | rfl) | rfl
    · cases hnone
    · rfl
    · rfl
  · rcases hf with (rfl | rfl) | rfl <;> rfl

/-- The tables that an insert creates, as what is told for their creation. -/
def created (insert : AdbcInsert) : List (List StatementFunction) :=
  if insert.insertMode = .ctas then [creation insert] else []

/-- **Creating the table** attempts the executions of `created`, and all of them if it succeeds. -/
theorem getGlobalSinkState_ran (hn : Numbered t) (connection : ConnectionHandle) (insert : AdbcInsert) :
    ∃ attempted, Ran t (getGlobalSinkState D t connection insert).2 attempted ∧
      attempted <+: created insert ∧
      ((getGlobalSinkState D t connection insert).1 = .ok () → attempted = created insert) := by
  rw [getGlobalSinkState, created]
  cases hmode : insert.insertMode with
  | append => exact ⟨[], .refl t, List.nil_prefix, fun _ => rfl⟩
  | ctas =>
    obtain ⟨attempted, hran, hprefix, hall⟩ := ingest_ran (D := D) hn connection
      (creation insert) (target_tells _ _ _)
    refine ⟨attempted, hran, hprefix, fun hok => hall ?_⟩
    simp only [checkAdbc] at hok
    by_cases h : (ingest D t connection (creation insert)).1.isOk
    · exact h
    · rw [if_neg h] at hok
      cases hok

/-- **The executions of an insert**, whatever the driver replies.  Rows are appended after their
table has been created, and only then; if all goes well, each is done once.  The table is
created with a stream without rows, and the rows are appended with one of the same schema. -/
theorem insert_executions (hlegal : Legal (events t)) (connection : ConnectionHandle)
    (insert : AdbcInsert) (anyChunk : Bool) :
    match execute D t connection insert anyChunk with
    | (.error _, t') => ∃ attempted, attempted <+: created insert ∧
        executionsOf t' = executionsOf t ++ attempted
    | (.ok status, t') => ∃ attempted,
        attempted <+: (if anyChunk then [appending insert] else []) ∧
        (status.isOk → attempted = if anyChunk then [appending insert] else []) ∧
        executionsOf t' = executionsOf t ++ created insert ++ attempted := by
  have hn := numbered_of_legal hlegal
  obtain ⟨made, hran, hprefix, hall⟩ :=
    getGlobalSinkState_ran (D := D) hn connection insert
  rw [execute]
  generalize getGlobalSinkState D t connection insert = result at hran hall ⊢
  obtain ⟨e | u, t₁⟩ := result
  · exact ⟨made, hprefix, hran.executions⟩
  · obtain rfl := hall rfl
    cases anyChunk with
    | false => exact ⟨[], List.nil_prefix, fun _ => rfl, by rw [List.append_nil]; exact hran.executions⟩
    | true =>
      have htells : ∀ f ∈ appending insert, f.Tells := by
        intro f hf
        rcases List.mem_cons.mp hf with rfl | hf
        · rfl
        · exact target_tells _ _ _ f hf
      obtain ⟨attempted, happended, hprefix', hall'⟩ := ingest_ran (D := D)
        (hran.numbered hn) connection (appending insert) htells
      refine ⟨attempted, hprefix', hall', ?_⟩
      show executionsOf (ingest D t₁ connection (appending insert)).2 = _
      rw [happended.executions, hran.executions]

end Inserts

/-- `CREATE TABLE t AS` a query with rows. -/
def createdTable : AdbcInsert := ⟨[], [], "t", "", .ctas⟩

/-- Where everything is accepted, the table is created and the rows are appended after that. -/
theorem createdTable_executions :
    ∃ attempted, attempted = [appending createdTable] ∧
      executionsOf (execute DriverSession.agreeable [] (.ready ⟨1, true⟩ 9) createdTable true).2 =
        executionsOf [] ++ created createdTable ++ attempted := by
  obtain ⟨attempted, -, hall, h⟩ := insert_executions (D := DriverSession.agreeable) (t := [])
    trivial (.ready ⟨1, true⟩ 9) createdTable true
  exact ⟨attempted, hall rfl, h⟩

end Ingest

end AdbcClient
