import AdbcClient.ProfileFile

/-!
# Where a profile is looked for

A profile that is named in a location, `profile://name`, is a file of the file system
(`AdbcProfileProviderFilesystem`, `adbc_driver_manager_profiles.cpp`): the name is one of a file,
or one that is looked for in the directories of a list that was set, in those of the environment
and in the one of the user.  The first file that is there decides, also if it is no profile, and a
path of which the system cannot tell whether there is a file ends the search with an exception.

`profile_search` says which names are found and for which an exception is thrown, and
`parseOptions_profileUri` what the database is initialised with then.
-/
namespace AdbcClient
namespace DriverManager

/-- `GetProfileSearchPaths`. -/
def profileSearchPaths (getenv : List Char → Option (List Char)) (additional : List Char) :
    SearchPaths :=
  (parsePath additional).map (.additional, ·) ++ getEnvPaths getenv "ADBC_PROFILE_PATH".toList ++
    [(.disabledAtCompileTime, "Conda prefix".toList),
      (.user, joinPath (userConfigDir getenv) "profiles".toList)]

/-- The file for a name in a directory. -/
def candidate (name directory : List Char) : List Char :=
  replaceExtension (joinPath directory name) tomlExtension

/-- `PopulateConnectionProfile`: what the driver manager is told of a profile.  The values are C
strings. -/
def populateConnectionProfile (m : Machine) (profile : FilesystemProfile) : ConnectionProfile where
  getDriverName := .ok (some (cString profile.driver), none)
  getOptions := .ok ((m.order profile.options.entries).map fun x => (x.1, cString x.2))
  getIntOptions := .ok ((m.order profile.intOptions.entries).map fun x => (x.1, x.2))
  getDoubleOptions := .ok ((m.order profile.doubleOptions.entries).map fun x => (x.1, x.2))

/-- A file that is there is parsed and loaded, and its failure is the provider's. -/
def loadFile (m : Machine) (path : List Char) : Except Failure ConnectionProfile :=
  match loadProfileFile path (m.parseFile path) with
  | .error message => .error (.invalidArgument message)
  | .ok profile => .ok (populateConnectionProfile m profile)

/-- A file that has been found in a directory.  The search paths are in the message. -/
def loadCandidate (m : Machine) (searchPaths : SearchPaths) (path : List Char) :
    Except Failure ConnectionProfile :=
  match loadProfileFile path (m.parseFile path) with
  | .error message => .error (.invalidArgument (addSearchPathsToError searchPaths .profile message))
  | .ok profile => .ok (populateConnectionProfile m profile)

/-- The loop of the provider over the search paths, which stops at the first file that is there. -/
def searchProfile (m : Machine) (name : List Char) (searchPaths : SearchPaths) :
    SearchPaths → Except Failure ConnectionProfile
  | [] => .error (.notFound (addSearchPathsToError searchPaths .profile
      ("Profile not found: " ++ String.ofList name)))
  | (source, directory) :: rest =>
    if source.isNote then searchProfile m name searchPaths rest
    else
      match m.isThere (candidate name directory) with
      | .error what => .error (.thrown what)
      | .ok true => loadCandidate m searchPaths (candidate name directory)
      | .ok false => searchProfile m name searchPaths rest

/-- `AdbcProfileProviderFilesystem`. -/
def profileProviderFilesystem (m : Machine) (profileName additional : List Char) :
    Except Failure ConnectionProfile :=
  let name := cString profileName
  if name = [] then .error (.invalidArgument "Profile name is empty")
  else if extension name = tomlExtension then
    match m.isThere name with
    | .error what => .error (.thrown what)
    | .ok true => loadFile m name
    | .ok false => .error (.notFound ("Profile file does not exist: " ++ String.ofList name))
  else if isAbsolute name then loadFile m (replaceExtension name tomlExtension)
  else
    let searchPaths := profileSearchPaths m.getenv (cString additional)
    searchProfile m name searchPaths searchPaths

/-- The directories in which a name is looked for. -/
def searchDirectories (m : Machine) (additional : List Char) : List (List Char) :=
  parsePath additional ++ ((m.getenv "ADBC_PROFILE_PATH".toList).elim [] parsePath ++
    [joinPath (userConfigDir m.getenv) "profiles".toList])

/-- The first directory in which a file for the name is not known to be missing, and what the
system says of it there. -/
structure FirstIn (m : Machine) (name additional directory : List Char)
    (there : Except String Bool) : Prop where
  found : (searchDirectories m additional).find?
    (fun d => m.isThere (candidate name d) ≠ .ok false) = some directory
  there : m.isThere (candidate name directory) = there

/-- **The file for a name**: the one that is named, or the first one that is there. -/
inductive FileFor (m : Machine) (name additional : List Char) : List Char → Prop where
  | named (h : extension name = tomlExtension) (there : m.isThere name = .ok true) :
      FileFor m name additional name
  | absolute (h : extension name ≠ tomlExtension) (habsolute : isAbsolute name = true) :
      FileFor m name additional (replaceExtension name tomlExtension)
  | first (h : extension name ≠ tomlExtension) (hrelative : isAbsolute name = false)
      {directory : List Char} (hfirst : FirstIn m name additional directory (.ok true)) :
      FileFor m name additional (candidate name directory)

/-- The system cannot tell whether there is a file for the name, before one has been found. -/
inductive Unreadable (m : Machine) (name additional : List Char) (what : String) : Prop where
  | named (h : extension name = tomlExtension) (there : m.isThere name = .error what)
  | first (h : extension name ≠ tomlExtension) (hrelative : isAbsolute name = false)
      {directory : List Char} (hfirst : FirstIn m name additional directory (.error what))

theorem directoriesOf_profileSearchPaths (m : Machine) (additional : List Char) :
    directoriesOf (profileSearchPaths m.getenv additional) = searchDirectories m additional := by
  rw [profileSearchPaths, directoriesOf_append, directoriesOf_append, directoriesOf_map rfl,
    directoriesOf_getEnvPaths, List.append_assoc]
  rfl

/-- **The loop** ends at the first directory in which the file is not known to be missing. -/
theorem searchProfile_eq (m : Machine) (name : List Char) (searchPaths rest : SearchPaths) :
    searchProfile m name searchPaths rest =
      match (directoriesOf rest).find? (fun d => m.isThere (candidate name d) ≠ .ok false) with
      | none => .error (.notFound (addSearchPathsToError searchPaths .profile
          ("Profile not found: " ++ String.ofList name)))
      | some directory =>
        match m.isThere (candidate name directory) with
        | .error what => .error (.thrown what)
        | .ok _ => loadCandidate m searchPaths (candidate name directory) := by
  induction rest with
  | nil => rfl
  | cons path rest ih =>
    obtain ⟨source, directory⟩ := path
    rw [searchProfile, directoriesOf_cons]
    -- a note is no directory, and the loop passes over it
    by_cases hnote : source.isNote = true
    · rw [if_pos hnote, if_pos hnote, ih]
    · rw [if_neg hnote, if_neg hnote, List.find?_cons]
      cases hthere : m.isThere (candidate name directory) with
      | error what =>
        simp only [ne_eq, reduceCtorEq, not_false_eq_true, decide_true]
        rw [hthere]
      | ok there =>
        cases there with
        | true =>
          simp only [ne_eq, Except.ok.injEq, reduceCtorEq, not_false_eq_true, decide_true]
          rw [hthere]
        | false =>
          simp only [ne_eq, not_true_eq_false, decide_false]
          exact ih

theorem loadCandidate_ok_iff (m : Machine) (searchPaths : SearchPaths) (path : List Char)
    (found : ConnectionProfile) :
    loadCandidate m searchPaths path = .ok found ↔ loadFile m path = .ok found := by
  rw [loadCandidate, loadFile]
  cases loadProfileFile path (m.parseFile path) with
  | error message => exact iff_of_false (fun h => (by cases h)) (fun h => (by cases h))
  | ok profile => exact Iff.rfl

theorem loadCandidate_returns (m : Machine) (searchPaths : SearchPaths) (path : List Char)
    (what : String) : loadCandidate m searchPaths path ≠ .error (.thrown what) := by
  rw [loadCandidate]
  cases loadProfileFile path (m.parseFile path) with
  | error message => exact fun h => (by cases h)
  | ok profile => exact fun h => (by cases h)

theorem loadFile_returns (m : Machine) (path : List Char) (what : String) :
    loadFile m path ≠ .error (.thrown what) := by
  rw [loadFile]
  cases loadProfileFile path (m.parseFile path) with
  | error message => exact fun h => (by cases h)
  | ok profile => exact fun h => (by cases h)

/-- What the system says of the first directory is not that there is no file. -/
theorem FirstIn.ne_missing {m : Machine} {name additional directory : List Char}
    {there : Except String Bool} (h : FirstIn m name additional directory there) :
    there ≠ .ok false := by
  have hfound := List.find?_some h.found
  rw [h.there] at hfound
  simpa using hfound

section Search
variable {m : Machine} {name additional : List Char}

theorem searchProfile_ok_iff (found : ConnectionProfile) :
    searchProfile m name (profileSearchPaths m.getenv additional)
        (profileSearchPaths m.getenv additional) = .ok found ↔
      ∃ directory, FirstIn m name additional directory (.ok true) ∧
        loadFile m (candidate name directory) = .ok found := by
  rw [searchProfile_eq, directoriesOf_profileSearchPaths]
  cases hfind : (searchDirectories m additional).find?
      (fun d => m.isThere (candidate name d) ≠ .ok false) with
  | none =>
    refine iff_of_false (fun h => (by cases h)) ?_
    rintro ⟨directory, hfirst, -⟩
    rw [hfirst.found] at hfind
    cases hfind
  | some directory =>
    have hsame : ∀ {directory' there}, FirstIn m name additional directory' there →
        directory' = directory :=
      fun h => Option.some.inj (h.found.symm.trans hfind)
    simp only
    cases hthere : m.isThere (candidate name directory) with
    | error what =>
      refine iff_of_false (fun h => (by cases h)) ?_
      rintro ⟨directory', hfirst, -⟩
      obtain rfl := hsame hfirst
      rw [hfirst.there] at hthere
      cases hthere
    | ok there =>
      simp only
      rw [loadCandidate_ok_iff]
      constructor
      · intro h
        have hfirst : FirstIn m name additional directory (.ok there) := ⟨hfind, hthere⟩
        cases there with
        | true => exact ⟨directory, hfirst, h⟩
        | false => exact absurd rfl hfirst.ne_missing
      · rintro ⟨directory', hfirst, h⟩
        obtain rfl := hsame hfirst
        exact h

theorem searchProfile_thrown_iff (what : String) :
    searchProfile m name (profileSearchPaths m.getenv additional)
        (profileSearchPaths m.getenv additional) = .error (.thrown what) ↔
      ∃ directory, FirstIn m name additional directory (.error what) := by
  rw [searchProfile_eq, directoriesOf_profileSearchPaths]
  cases hfind : (searchDirectories m additional).find?
      (fun d => m.isThere (candidate name d) ≠ .ok false) with
  | none =>
    refine iff_of_false (fun h => (by cases h)) ?_
    rintro ⟨directory, hfirst⟩
    rw [hfirst.found] at hfind
    cases hfind
  | some directory =>
    simp only
    cases hthere : m.isThere (candidate name directory) with
    | error what' =>
      constructor
      · intro h
        cases h
        exact ⟨directory, hfind, hthere⟩
      · rintro ⟨directory', hfirst⟩
        obtain rfl : directory' = directory := Option.some.inj (hfirst.found.symm.trans hfind)
        rw [hfirst.there] at hthere
        cases hthere
        rfl
    | ok there =>
      refine iff_of_false (loadCandidate_returns m _ _ what) ?_
      rintro ⟨directory', hfirst⟩
      obtain rfl : directory' = directory := Option.some.inj (hfirst.found.symm.trans hfind)
      rw [hfirst.there] at hthere
      cases hthere

end Search

/-- The provider loads the file for the name. -/
theorem profileProvider_ok_iff (m : Machine) (name additional : List Char)
    (found : ConnectionProfile) : profileProviderFilesystem m name additional = .ok found ↔
      cString name ≠ [] ∧ ∃ path, FileFor m (cString name) (cString additional) path ∧
        loadFile m path = .ok found := by
  rw [profileProviderFilesystem]
  simp only
  generalize cString name = name
  generalize cString additional = additional
  -- a file that is named, a path from the root, and a name that is looked for
  by_cases hname : name = []
  · simp [hname]
  rw [if_neg hname]
  by_cases htoml : extension name = tomlExtension
  · rw [if_pos htoml]
    have hfile : (∃ path, FileFor m name additional path ∧ loadFile m path = .ok found) ↔
        m.isThere name = .ok true ∧ loadFile m name = .ok found := by
      constructor
      · rintro ⟨path, hfile, hload⟩
        cases hfile with
        | named _ there => exact ⟨there, hload⟩
        | absolute h => exact absurd htoml h
        | first h => exact absurd htoml h
      · rintro ⟨there, hload⟩
        exact ⟨name, .named htoml there, hload⟩
    rw [hfile]
    cases m.isThere name with
    | error what => simp
    | ok there => cases there <;> simp [hname]
  rw [if_neg htoml]
  by_cases habsolute : isAbsolute name = true
  · rw [if_pos habsolute]
    constructor
    · exact fun h => ⟨hname, _, .absolute htoml habsolute, h⟩
    · rintro ⟨-, path, hfile, hload⟩
      cases hfile with
      | named h => exact absurd h htoml
      | absolute => exact hload
      | first _ hrelative =>
        rw [hrelative] at habsolute
        cases habsolute
  · have hrelative : isAbsolute name = false := by simpa using habsolute
    rw [if_neg habsolute, searchProfile_ok_iff]
    constructor
    · rintro ⟨directory, hfirst, hload⟩
      exact ⟨hname, _, .first htoml hrelative hfirst, hload⟩
    · rintro ⟨-, path, hfile, hload⟩
      cases hfile with
      | named h => exact absurd h htoml
      | absolute _ h => exact absurd h habsolute
      | first _ _ hfirst => exact ⟨_, hfirst, hload⟩

/-- The provider throws where the system cannot tell. -/
theorem profileProvider_thrown_iff (m : Machine) (name additional : List Char) (what : String) :
    profileProviderFilesystem m name additional = .error (.thrown what) ↔
      cString name ≠ [] ∧ Unreadable m (cString name) (cString additional) what := by
  rw [profileProviderFilesystem]
  simp only
  generalize cString name = name
  generalize cString additional = additional
  by_cases hname : name = []
  · rw [if_pos hname]
    exact iff_of_false (fun h => (by cases h)) fun h => h.1 hname
  rw [if_neg hname]
  by_cases htoml : extension name = tomlExtension
  · rw [if_pos htoml]
    have hnamed : Unreadable m name additional what ↔ m.isThere name = .error what := by
      constructor
      · rintro (⟨-, there⟩ | ⟨h⟩)
        · exact there
        · exact absurd htoml h
      · exact .named htoml
    rw [hnamed]
    cases m.isThere name with
    | error what' =>
      simp only [Except.error.injEq, Failure.thrown.injEq]
      exact ⟨fun h => ⟨hname, h⟩, And.right⟩
    | ok there =>
      refine iff_of_false ?_ fun h => (by cases h.2)
      cases there with
      | true => exact loadFile_returns m name what
      | false => exact fun h => (by cases h)
  rw [if_neg htoml]
  by_cases habsolute : isAbsolute name = true
  · rw [if_pos habsolute]
    refine iff_of_false (loadFile_returns m _ what) ?_
    rintro ⟨-, ⟨h, -⟩ | ⟨-, hrelative⟩⟩
    · exact htoml h
    · rw [hrelative] at habsolute
      cases habsolute
  · have hrelative : isAbsolute name = false := by simpa using habsolute
    rw [if_neg habsolute, searchProfile_thrown_iff]
    constructor
    · rintro ⟨directory, hfirst⟩
      exact ⟨hname, .first htoml hrelative hfirst⟩
    · rintro ⟨-, ⟨h, -⟩ | ⟨-, -, hfirst⟩⟩
      · exact absurd h htoml
      · exact ⟨_, hfirst⟩

/-- There is one file for a name. -/
theorem FileFor.unique {m : Machine} {name additional path path' : List Char}
    (h : FileFor m name additional path) (h' : FileFor m name additional path') : path = path' := by
  cases h with
  | named htoml hthere =>
    cases h' with
    | named => rfl
    | absolute hno => exact absurd htoml hno
    | first hno => exact absurd htoml hno
  | absolute hno habsolute =>
    cases h' with
    | named htoml => exact absurd htoml hno
    | absolute => rfl
    | first _ hrelative =>
      rw [hrelative] at habsolute
      cases habsolute
  | first hno hrelative hfirst =>
    cases h' with
    | named htoml => exact absurd htoml hno
    | absolute _ habsolute =>
      rw [hrelative] at habsolute
      cases habsolute
    | first _ _ hfirst' => rw [Option.some.inj (hfirst.found.symm.trans hfirst'.found)]

theorem loadFile_ok {m : Machine} {path : List Char} {found : ConnectionProfile}
    (h : loadFile m path = .ok found) : ∃ config options profile, m.parseFile path = .ok config ∧
      IsProfile config options ∧ profile.driver = profileDriver config ∧
      Has profile (leaves [] options) ∧ found = populateConnectionProfile m profile := by
  rw [loadFile] at h
  split at h
  · cases h
  · rename_i profile hprofile
    obtain ⟨config, options, hconfig, hisProfile, hdriver, hhas⟩ := loadProfileFile_ok hprofile
    exact ⟨config, options, profile, hconfig, hisProfile, hdriver, hhas, (Except.ok.inj h).symm⟩

/-- **The names that are found**: there is a file for the name, and it is a profile.  A file that
is none is not passed over for one that is found later, and neither is a directory of which the
system cannot tell: there an exception is thrown. -/
theorem profile_search (m : Machine) (name additional : List Char) :
    ((∃ found, profileProviderFilesystem m name additional = .ok found) ↔
      cString name ≠ [] ∧ (∃ path, FileFor m (cString name) (cString additional) path) ∧
        ∀ path, FileFor m (cString name) (cString additional) path →
          ∃ config options, m.parseFile path = .ok config ∧ IsProfile config options) ∧
      ∀ what, profileProviderFilesystem m name additional = .error (.thrown what) ↔
        cString name ≠ [] ∧ Unreadable m (cString name) (cString additional) what := by
  refine ⟨⟨?_, ?_⟩, profileProvider_thrown_iff m name additional⟩
  · rintro ⟨found, h⟩
    obtain ⟨hname, path, hfile, hload⟩ := (profileProvider_ok_iff ..).mp h
    obtain ⟨config, options, -, hconfig, hisProfile, -⟩ := loadFile_ok hload
    refine ⟨hname, ⟨path, hfile⟩, fun path' hfile' => ?_⟩
    obtain rfl := hfile.unique hfile'
    exact ⟨config, options, hconfig, hisProfile⟩
  · rintro ⟨hname, ⟨path, hfile⟩, hall⟩
    obtain ⟨config, options, hconfig, hisProfile⟩ := hall path hfile
    obtain ⟨profile, hprofile⟩ := (loadProfileFile_isOk_iff path config).mpr ⟨options, hisProfile⟩
    refine ⟨populateConnectionProfile m profile,
      (profileProvider_ok_iff ..).mpr ⟨hname, path, hfile, ?_⟩⟩
    rw [loadFile, hconfig, hprofile]

/-! ## What the database is initialised with -/

/-- What a connection sets, without the location. -/
def TempDatabase.unlocated : TempDatabase :=
  { TempDatabase.new with loadFlags := loadFlagDefault }

/-- The text of an option, for a computer with an environment. -/
def TextOf (getenv : List Char → Option (List Char)) (options : TomlTable)
    (key value : List Char) : Prop :=
  ∃ raw, lastUnder TomlValue.text key (leaves [] options) = some raw ∧
    Expands getenv (cString raw) value

/-- What a file says of a database, before its driver and its location are looked at together. -/
structure Reads (getenv : List Char → Option (List Char)) (config options : TomlTable)
    (db : TempDatabase) : Prop where
  texts : ∀ k v, db.options.lookup k = some v ↔ TextOf getenv options k v
  ints : ∀ k, db.intOptions.lookup k = lastUnder TomlValue.int k (leaves [] options)
  doubles : ∀ k, db.doubleOptions.lookup k = lastUnder TomlValue.double k (leaves [] options)
  driver : db.driver = cString (profileDriver config)
  rest : db = { TempDatabase.unlocated with
    driver := db.driver
    options := db.options
    intOptions := db.intOptions
    doubleOptions := db.doubleOptions }

end DriverManager
end AdbcClient
