import AdbcClient.DriverSession

/-!
# Connecting by a location

`parseOptions` says which driver and which options a database is initialised with, and
`AdbcConnection.construct` what is done with them.  The `consultation` of a run are its steps in
which a driver is looked for, makes a database, or is told an option.  `construct_consults` says
what these steps are for all options, and which of them make the constructor throw, whatever the
drivers reply; `connect_location` is the case of a text that names no profile.
-/
namespace AdbcClient
namespace DriverManager

/-- A step in which a driver is looked for, makes a database, or is told an option of one. -/
def Action.consults : Action → Bool
  | .load .. | .loadThrown .. | .databaseNew _ | .databaseSetOption .. => true
  | _ => false

/-- These steps of a run: those in which a driver is looked for, asked for a database, or told an
option of one. -/
def consultation (t : Trace) : Trace := t.filter fun step => step.1.consults

/-- A run goes on, and these are the steps of its continuation that consult a driver. -/
def Extends (t t' : Trace) (consulted : Trace) : Prop :=
  ∃ steps, t' = t ++ steps ∧ consultation steps = consulted

section Extends
variable {t t' t'' : Trace} {consulted consulted' : Trace}

theorem Extends.refl (t : Trace) : Extends t t [] := ⟨[], (List.append_nil t).symm, rfl⟩

theorem Extends.trans (h : Extends t t' consulted) (h' : Extends t' t'' consulted') :
    Extends t t'' (consulted ++ consulted') := by
  obtain ⟨steps, rfl, rfl⟩ := h
  obtain ⟨steps', rfl, rfl⟩ := h'
  exact ⟨steps ++ steps', List.append_assoc .., List.filter_append ..⟩

/-- A step that consults no driver extends the run, and not what was consulted. -/
theorem Extends.quiet (action : Action) (reply : Reply) (h : action.consults = false) :
    Extends t (t ++ [(action, reply)]) [] :=
  ⟨[(action, reply)], rfl, by simp [consultation, h]⟩

/-- A step that does consult a driver extends the run, and what was consulted by that step. -/
theorem Extends.step (action : Action) (reply : Reply) (h : action.consults = true) :
    Extends t (t ++ [(action, reply)]) [(action, reply)] :=
  ⟨[(action, reply)], rfl, by simp [consultation, h]⟩

end Extends

/-! ## Steps that consult no driver -/

section Quiet
variable {D : Drivers} {t : Trace}

theorem dropDriver_quiet (driver : LoadedDriver) : Extends t (dropDriver t driver) [] := by
  refine ⟨driver.drops, dropDriver_eq t driver, ?_⟩
  rw [LoadedDriver.drops]
  split <;> rfl

theorem releaseDatabase_quiet (handle : DatabaseHandle) :
    Extends t (releaseDatabase D t handle) [] := by
  cases handle with
  | zeroed => exact .refl t
  | pending args temp => exact .quiet _ .success rfl
  | ready driver database => exact (Extends.quiet _ _ rfl).trans (dropDriver_quiet driver)

theorem releaseConnection_quiet (handle : ConnectionHandle) :
    Extends t (releaseConnection D t handle) [] := by
  cases handle with
  | zeroed => exact .refl t
  | pending args temp => exact .quiet _ .success rfl
  | ready driver connection => exact .quiet _ _ rfl

theorem options_empty {β : Type} (option : List Char → β → OptionValue) :
    D.options (∅ : AList fun _ : List Char => β) option = [] := by
  have hnone := List.perm_nil.mp (D.order_perm ([] : List (List Char × β)))
  show (D.order []).map _ = _
  rw [hnone]
  rfl

/-- A connection of the extension has no options. -/
theorem adbcConnectionInit_quiet (database : DatabaseHandle) (temp : Id) :
    Extends t (adbcConnectionInit D t database (some (⟨∅, ∅, ∅, ∅⟩, temp))).2.2 [] := by
  cases database with
  | zeroed => exact .refl t
  | pending args temp' => exact .refl t
  | ready driver database =>
    have hnone : D.connectionOptions ⟨∅, ∅, ∅, ∅⟩ = [] := by
      simp only [Drivers.connectionOptions, options_empty, List.append_nil]
    have hmade : Extends t (note t (.delete temp) ++
        [(.connectionNew driver.block database,
          D.answer (note t (.delete temp)) (.connectionNew driver.block database))]) [] :=
      (Extends.quiet _ .success rfl).trans (.quiet _ _ rfl)
    rw [adbcConnectionInit]
    simp only
    rw [hnone]
    simp only [List.map_nil, setOptions]
    split
    · exact hmade.trans (.quiet _ _ rfl)
    · exact hmade

end Quiet

/-! ## Options -/

/-- The options of a database, in the order in which they are passed on. -/
def Drivers.values (D : Drivers) (args : TempDatabase) : List OptionValue :=
  D.options args.options .text ++ D.options args.bytesOptions .bytes ++
    D.options args.intOptions .int ++ D.options args.doubleOptions .double

/-- A database with one option, which is a text, and with no options of the other types. -/
structure OneOption (args : TempDatabase) (key value : List Char) : Prop where
  options : args.options = AList.insert key value ∅
  bytesOptions : args.bytesOptions = ∅
  intOptions : args.intOptions = ∅
  doubleOptions : args.doubleOptions = ∅

/-- A hash table with one option is gone through in one way. -/
theorem values_one {D : Drivers} {args : TempDatabase} {key value : List Char}
    (h : OneOption args key value) : D.values args = [.text key value] := by
  have hone : D.order [(key, value)] = [(key, value)] :=
    List.perm_singleton.mp (D.order_perm [(key, value)])
  have hoption : D.options (AList.insert key value ∅) .text = [.text key value] := by
    show (D.order [(key, value)]).map _ = _
    rw [hone]
    rfl
  rw [Drivers.values, h.options, h.bytesOptions, h.intOptions, h.doubleOptions, hoption,
    options_empty, options_empty, options_empty]
  rfl

/-- **How a driver is consulted** for a database with these options: it is looked for once.  If
it is loaded it is asked for a database, and if it makes one it is told the options in their order,
all of them if it refuses none.  `throws` holds if an exception has left the search, and `refuses`
if the driver is not loaded or makes no database, or refuses the last option that it is told. -/
inductive Consults (source : DriverSource) (options : List OptionValue) (throws refuses : Prop) :
    Trace → Prop where
  | thrown {driver : Id} (hthrows : throws) :
      Consults source options throws refuses [(.loadThrown driver source, .success)]
  | notLoaded {driver : Id} {loaded : Reply} (hloaded : loaded.isOk = false)
      (hrefuses : refuses) :
      Consults source options throws refuses [(.load driver source, loaded)]
  | notMade {driver : Id} {loaded made : Reply} (hloaded : loaded.isOk = true)
      (hmade : made.isOk = false) (hrefuses : refuses) :
      Consults source options throws refuses
        [(.load driver source, loaded), (.databaseNew driver, made)]
  | told {driver database : Id} {loaded made : Reply} {calls : Trace}
      (hloaded : loaded.isOk = true) (hmade : made.isOk = true)
      (hcalls : (calls.map Prod.fst).Sublist (options.map (.databaseSetOption driver database)))
      (hall : (∀ call ∈ calls, call.2.isOk = true) →
        calls.map Prod.fst = options.map (.databaseSetOption driver database))
      (hlast : ∀ last, calls.getLast? = some last → last.2.isOk = false → refuses) :
      Consults source options throws refuses
        ((.load driver source, loaded) :: (.databaseNew driver, made) :: calls)

theorem Consults.mono {source : DriverSource} {options : List OptionValue}
    {throws refuses throws' refuses' : Prop} {steps : Trace}
    (h : Consults source options throws refuses steps) (hthrows : throws → throws')
    (hrefuses : refuses → refuses') : Consults source options throws' refuses' steps := by
  cases h with
  | thrown h => exact .thrown (hthrows h)
  | notLoaded hloaded h => exact .notLoaded hloaded (hrefuses h)
  | notMade hloaded hmade h => exact .notMade hloaded hmade (hrefuses h)
  | told hloaded hmade hcalls hall hlast =>
    exact .told hloaded hmade hcalls hall fun last hl hr => hrefuses (hlast last hl hr)

/-- A call that has returned a status other than `ADBC_STATUS_OK`. -/
def Refused (returned : Except String Reply) : Prop :=
  ∃ reply, returned = .ok reply ∧ reply.isOk = false

/-- A call that an exception has left. -/
def Left (returned : Except String Reply) : Prop := ∃ what, returned = .error what

section Init
variable {D : Drivers} {t : Trace} {args : TempDatabase}

theorem Sets.consultation_eq {status : Reply} {driver database : Id} {calls : Trace}
    {result : Reply × Trace}
    (h : Sets t status (databaseOptions D args driver database) calls result) :
    consultation calls = calls := by
  refine List.filter_eq_self.mpr fun call hcall => ?_
  obtain ⟨option, -, hoption⟩ := List.mem_map.mp (h.options call hcall)
  rw [← hoption]
  rfl

/-- The driver has made a database, which is told its options. -/
theorem configureDatabase_consults (args : TempDatabase) (driver : LoadedDriver) (database : Id)
    (status : Reply) :
    ∃ calls, Extends t (configureDatabase D t args driver database status).2.2 calls ∧
      (calls.map Prod.fst).Sublist ((D.values args).map (.databaseSetOption driver.block database)) ∧
      ((∀ call ∈ calls, call.2.isOk = true) →
        calls.map Prod.fst = (D.values args).map (.databaseSetOption driver.block database)) ∧
      ∀ last, calls.getLast? = some last → last.2.isOk = false →
        (configureDatabase D t args driver database status).1.isOk = false := by
  obtain ⟨calls, hsets⟩ := setDatabaseOptions_sets (D := D) (t := t) args driver.block database status
  have hcalls := hsets.consultation_eq
  rw [configureDatabase]
  generalize setDatabaseOptions D t args driver.block database status = set at hsets ⊢
  obtain ⟨reply, t₁⟩ := set
  obtain ⟨rfl, hsublist, hall, hreply⟩ := hsets
  simp only at hreply ⊢
  have htold : Extends t (t ++ calls) calls := ⟨calls, rfl, hcalls⟩
  have hlast : ∀ last, calls.getLast? = some last → reply = last.2 := by
    intro last hlast
    rw [hreply, hlast]
    rfl
  by_cases hok : reply.isOk
  · rw [if_pos hok]
    refine ⟨calls, ?_, hsublist, hall, fun last hl hrefused => ?_⟩
    · have hend := htold.trans (Extends.quiet (.databaseInit driver.block database)
        (D.answer (t ++ calls) (.databaseInit driver.block database)) rfl)
      rwa [List.append_nil] at hend
    · rw [hlast last hl, hrefused] at hok
      cases hok
  · rw [if_neg hok]
    refine ⟨calls, ?_, hsublist, hall, fun _ _ _ => ?_⟩
    · have hend := (htold.trans (Extends.quiet (.databaseRelease driver.block database)
        (D.answer (t ++ calls) (.databaseRelease driver.block database)) rfl)).trans
          (dropDriver_quiet driver)
      rwa [List.append_nil, List.append_nil] at hend
    · simpa using hok

/-- **What `AdbcDatabaseInit` asks a driver**, if the options say which. -/
theorem adbcDatabaseInit_consults {args₀ : TempDatabase}
    (hparse : parseOptions D.toSurroundings args₀ = .ok args) (temp : Id) :
    ∃ consulted, Extends t (adbcDatabaseInit D t (some (args₀, temp))).2.2 consulted ∧
      Consults args.source (D.values args) (Left (adbcDatabaseInit D t (some (args₀, temp))).1)
        (Refused (adbcDatabaseInit D t (some (args₀, temp))).1) consulted := by
  have hnew : Extends t (note t (.new .adbcDriver)) [] := .quiet _ .success rfl
  rw [adbcDatabaseInit]
  simp only
  rw [hparse]
  simp only
  split
  · exact ⟨_, hnew.trans (.step _ .success rfl), .thrown ⟨_, rfl⟩⟩
  · have hload := hnew.trans (Extends.step (.load t.length args.source)
      (D.answer (note t (.new .adbcDriver)) (.load t.length args.source)) rfl)
    by_cases hloaded : (D.answer (note t (.new .adbcDriver)) (.load t.length args.source)).isOk
    · rw [if_pos hloaded, createDatabase]
      simp only
      generalize hmade : D.answer _ (.databaseNew t.length) = made
      have hdatabase := hload.trans (Extends.step (.databaseNew t.length) made rfl)
      by_cases hok : made.isOk
      · rw [if_pos hok]
        obtain ⟨calls, hcalls, hsublist, hall, hlast⟩ := configureDatabase_consults args _ _ made
        exact ⟨_, (hdatabase.trans (.quiet _ .success rfl)).trans hcalls,
          .told hloaded hok hsublist hall fun last hl hrefused =>
            ⟨_, rfl, hlast last hl hrefused⟩⟩
      · rw [if_neg hok]
        have hrefused : made.isOk = false := by simpa using hok
        refine ⟨_, hdatabase.trans (dropDriver_quiet _), .notMade hloaded hrefused ⟨_, rfl, ?_⟩⟩
        rw [reported_isOk]
        exact hrefused
    · rw [if_neg hloaded]
      have hrefused : (D.answer (note t (.new .adbcDriver))
        (.load t.length args.source)).isOk = false := by simpa using hloaded
      exact ⟨_, hload.trans (dropDriver_quiet _), .notLoaded hrefused ⟨_, rfl, hrefused⟩⟩

end Init

end DriverManager

open DriverManager

namespace AdbcConnection
variable {D : Drivers} {t : Trace}

theorem destroy_quiet (c : AdbcConnection) : Extends t (c.destroy D t) [] :=
  (releaseConnection_quiet c.connection).trans (releaseDatabase_quiet c.database)

/-- The constructor throws because a call has not succeeded. -/
def ThrowsBinder (D : Drivers) (t : Trace) (uri : List Char) : Prop :=
  ∃ message, (construct D t uri).1 = .error (.binder message)

/-- The constructor throws because an exception of the file system has left the search for a
driver. -/
def ThrowsFilesystem (D : Drivers) (t : Trace) (uri : List Char) : Prop :=
  ∃ message, (construct D t uri).1 = .error (.filesystem message)

/-- **What the constructor asks a driver**, if the options say which. -/
theorem construct_consults {args' : TempDatabase} {uri : List Char}
    (hparse : parseOptions D.toSurroundings (args uri) = .ok args') :
    ∃ steps, (construct D t uri).2 = t ++ steps ∧
      Consults args'.source (D.values args') (ThrowsFilesystem D t uri) (ThrowsBinder D t uri)
        (consultation steps) := by
  obtain ⟨consulted, hrun, hconsults⟩ :=
    adbcDatabaseInit_consults (t := note t (.new .tempDatabase)) hparse t.length
  have hnew : Extends t (note t (.new .tempDatabase)) [] := .quiet _ .success rfl
  suffices h : Extends t (construct D t uri).2 consulted ∧ Consults args'.source (D.values args')
      (ThrowsFilesystem D t uri) (ThrowsBinder D t uri) consulted by
    obtain ⟨⟨steps, hsteps, rfl⟩, hconsults⟩ := h
    exact ⟨steps, hsteps, hconsults⟩
  rw [ThrowsFilesystem, ThrowsBinder, construct_eq]
  generalize adbcDatabaseInit D _ _ = init at hrun hconsults ⊢
  obtain ⟨what | reply, database, t₁⟩ := init
  · have hend := (hnew.trans hrun).trans
      (destroy_quiet (D := D) ⟨database, .zeroed⟩)
    rw [List.append_nil] at hend
    exact ⟨hend, hconsults.mono (fun _ => ⟨what, rfl⟩) fun ⟨_, h, _⟩ => (by cases h)⟩
  · simp only at hrun hconsults ⊢
    have hleft : ¬ Left (.ok reply) := fun ⟨_, h⟩ => (by cases h)
    by_cases hok : reply.isOk
    · rw [if_pos hok]
      have hrefused : ¬ Refused (.ok reply) := by
        rintro ⟨reply', hsame, hrefused⟩
        rw [← Except.ok.inj hsame, hok] at hrefused
        cases hrefused
      have hconnect := ((hnew.trans hrun).trans (Extends.quiet (.new .tempConnection)
        .success rfl)).trans (adbcConnectionInit_quiet (D := D) database t₁.length)
      rw [List.append_nil, List.append_nil] at hconnect
      generalize adbcConnectionInit D _ _ _ = init at hconnect ⊢
      by_cases hok : init.1.isOk
      · rw [if_pos hok]
        exact ⟨hconnect, hconsults.mono (absurd · hleft) (absurd · hrefused)⟩
      · rw [if_neg hok]
        have hend := hconnect.trans (destroy_quiet (D := D) ⟨database, init.2.1⟩)
        rw [List.append_nil] at hend
        exact ⟨hend, hconsults.mono (absurd · hleft) (absurd · hrefused)⟩
    · rw [if_neg hok]
      have hend := (hnew.trans hrun).trans (destroy_quiet (D := D) ⟨database, .zeroed⟩)
      rw [List.append_nil] at hend
      exact ⟨hend, hconsults.mono (absurd · hleft) fun _ => ⟨_, rfl⟩⟩

/-- Options that name no driver: the constructor throws, and no driver is consulted. -/
theorem construct_refused {uri : List Char} {failure : Failure}
    (hparse : parseOptions D.toSurroundings (args uri) = .error failure) :
    (construct D t uri).1 = .error failure.exception ∧
      ∃ steps, (construct D t uri).2 = t ++ steps ∧ consultation steps = [] := by
  have hrun : Extends t (destroy D (note t (.new .tempDatabase))
      ⟨.pending (args uri) t.length, .zeroed⟩) [] :=
    (Extends.quiet _ .success rfl).trans (destroy_quiet _)
  rw [construct_eq, adbcDatabaseInit]
  simp only
  rw [hparse]
  cases failure with
  | returned reply hfailed =>
    simp only
    rw [if_neg (by rw [hfailed]; simp)]
    exact ⟨rfl, hrun⟩
  | thrown what => exact ⟨rfl, hrun⟩

/-- **Connecting by a location.**  Whatever the drivers reply, a text that names a driver has this
driver looked for and no other, and the driver is told the location in the text and nothing else;
the constructor throws if the search throws, or if the driver is not loaded, makes no database or
refuses the location.  For a text that names none it throws before it looks for one. -/
theorem connect_location (D : Drivers) (t : Trace) {uri : List Char}
    (h : ¬ NamesProfile (cString uri)) :
    ∃ steps, (construct D t uri).2 = t ++ steps ∧
      ((∃ l : Location, l.WellFormed ∧ cString uri = l.text ∧
          Consults (.find l.name none loadFlagDefault none) [.text uriKey l.location]
            (ThrowsFilesystem D t uri) (ThrowsBinder D t uri) (consultation steps)) ∨
        (¬ ∃ l : Location, l.WellFormed ∧ cString uri = l.text) ∧
          (∃ exception, (construct D t uri).1 = .error exception) ∧ consultation steps = []) := by
  have hargs : args uri = .ofUri (cString uri) := rfl
  cases hparse : parseOptions D.toSurroundings (args uri) with
  | error failure =>
    obtain ⟨hthrows, steps, hsteps, hnone⟩ := construct_refused (t := t) hparse
    refine ⟨steps, hsteps, .inr ⟨?_, ⟨_, hthrows⟩, hnone⟩⟩
    rintro ⟨l, hl, htext⟩
    have hnamed := (uri_names_driver D.toSurroundings h _).mpr ⟨l, hl, htext, rfl⟩
    rw [← hargs, hparse] at hnamed
    cases hnamed
  | ok db =>
    obtain ⟨steps, hsteps, hconsults⟩ := construct_consults (t := t) hparse
    rw [hargs] at hparse
    obtain ⟨l, hl, htext, rfl⟩ := (uri_names_driver D.toSurroundings h db).mp hparse
    refine ⟨steps, hsteps, .inl ⟨l, hl, htext, ?_⟩⟩
    have hvalues : D.values (.named (cString uri) l) = [.text uriKey l.location] :=
      values_one ⟨rfl, rfl, rfl, rfl⟩
    rw [hvalues] at hconsults
    exact hconsults

/-- A driver that is loaded and makes a database, and refuses every option of it. -/
def refusing : Drivers :=
  { DriverSession.agreeable with
    answer := fun _ action => match action with
      | .databaseSetOption .. => ⟨.invalidArgument, some "no such file"⟩
      | _ => .success }

/-- The driver is found, loaded and told the location, and its refusal is the error that is
thrown. -/
theorem refused_location_throws : ThrowsBinder refusing [] "sqlite::memory:".toList := by
  have hprofile : ¬ NamesProfile (cString "sqlite::memory:".toList) := by
    rintro ⟨x, name, h⟩
    cases h
  obtain ⟨steps, hsteps, ⟨l, -, -, hconsults⟩ | ⟨hnone, -⟩⟩ := connect_location refusing [] hprofile
  · have hrun : consultation (construct refusing [] "sqlite::memory:".toList).2 =
        [(.load 1 (.find "sqlite".toList none loadFlagDefault none), .success),
          (.databaseNew 1, .success),
          (.databaseSetOption 1 3 (.text uriKey ":memory:".toList),
            ⟨.invalidArgument, some "no such file"⟩)] := rfl
    rw [hsteps, List.nil_append] at hrun
    generalize consultation steps = consulted at hconsults hrun
    cases hconsults with
    | thrown => exact absurd (congrArg List.length hrun) (by simp)
    | notLoaded => exact absurd (congrArg List.length hrun) (by simp)
    | notMade => exact absurd (congrArg List.length hrun) (by simp)
    | told hloaded hmade hsublist hall hlast =>
      refine hlast (.databaseSetOption 1 3 (.text uriKey ":memory:".toList),
        ⟨.invalidArgument, some "no such file"⟩) ?_ rfl
      rw [(List.cons.inj (List.cons.inj hrun).2).2]
      rfl
  · exact absurd ⟨.behind "sqlite".toList ':' "memory:".toList (by decide),
      ⟨by decide, by decide⟩, by decide⟩ hnone

end AdbcConnection

end AdbcClient
