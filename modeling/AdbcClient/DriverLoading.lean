import AdbcClient.DriverManager
import AdbcClient.FileSearch

/-!
# Loading a driver

Which library is opened for the name of a driver (`adbc_driver_manager_driver_loading.cpp`): the
name may be the path of a library or of a manifest, or it is looked for in the directories of the
environment, in those that were set, and in the ones of the user and of the system, where a
manifest goes before a library.  If it is in none of them, the dynamic linker looks for it.  An
exception of the file system, which cannot tell whether there is a manifest or a directory, ends
the search.  Names and paths are lists of bytes, and the check for bytes that cannot be printed goes
over them one by one.

The extension opens no library that has DuckDB or Quack in its name.  `forbidden_opened` says what
that comes to for the files that are opened, whatever is looked for.
-/
namespace AdbcClient
namespace DriverManager

/-- `DriverInfo`: the other members are not looked at. -/
structure DriverInfo where
  libPath : List Char
  entrypoint : List Char

/-- The computer, with its dynamic linker.  `integerValue` is `value<int64_t>` of a TOML value. -/
structure Loader extends Machine where
  currentArch : List Char
  integerValue : TomlValue → Option Int
  dlopen : List Char → Except String Nat
  dlsym : Option Nat → List Char → Except String Nat

/-- A call of `dlopen`: the library that `Load` was called with, and the path that it has passed on
for that. -/
structure Opening where
  library : List Char
  path : List Char
  deriving DecidableEq

/-- What is changed while a driver is looked for: `DriverInfo`, the handle of the library, the
message of the error, and the calls of `dlopen`. -/
structure Loading where
  info : DriverInfo
  handle : Option Nat
  message : Option String
  opened : List Opening

namespace Loading

/-- `SetError`. -/
def setError (s : Loading) (message : String) : Loading :=
  { s with message := some ("[Driver Manager] " ++ message) }

/-- `AppendError`. -/
def appendError (s : Loading) (message : String) : Loading :=
  match s.message with
  | none => s.setError message
  | some before => { s with message := some (before ++ "\n" ++ message) }

end Loading

/-! ## One library -/

/-- `CheckNonPrintableLibraryName`: the note for a name with bytes that cannot be printed, which are
written as numbers. -/
def checkNonPrintableLibraryName (name : List Char) : String :=
  let bytes := name.map Char.toNat
  let printable := fun v : Nat => 32 ≤ v && v ≤ 127
  if bytes.all printable then ""
  else "Note: driver name may have non-printable characters: `" ++
    String.ofList (bytes.flatMap fun v =>
      if printable v then [Char.ofNat v]
      else ['\\', 'x', Nat.digitChar (v / 16), Nat.digitChar (v % 16)]) ++ "`"

/-- `kPlatformLibraryPrefix`. -/
def libraryPrefix : List Char := ['l', 'i', 'b']

/-- `kPlatformLibrarySuffix`. -/
def librarySuffix : List Char := ['.', 's', 'o']

/-- The second name that is tried.  The suffix is looked for where it would be in the new name. -/
def fullDriverName (library : List Char) : List Char :=
  let full := if libraryPrefix <+: library then library else libraryPrefix ++ library
  if library.length < librarySuffix.length ∨
      (library.drop (full.length - librarySuffix.length)).take librarySuffix.length ≠ librarySuffix
  then full ++ librarySuffix
  else full

/-- `ManagedLibrary::Load`. -/
def load (m : Loader) (library : List Char) (attemptedPaths : SearchPaths) (s : Loading) :
    AdbcStatusCode × Loading :=
  if "quack".toList <:+: stem library then
    (.notFound, s.setError "Connecting to Quack is not supported with the ADBC extension")
  else if "duckdb".toList <:+: stem library then
    (.notFound, s.setError "Connecting to DuckDB is not supported with the ADBC extension")
  else
    let name := cString library
    match m.dlopen name with
    | .ok handle =>
      (.ok, { s with handle := some handle, opened := s.opened ++ [⟨library, name⟩] })
    | .error what =>
      let full := cString (fullDriverName library)
      match m.dlopen full with
      | .ok handle =>
        (.ok, { s with
          handle := some handle
          opened := s.opened ++ [⟨library, name⟩, ⟨library, full⟩] })
      | .error what' =>
        let note := checkNonPrintableLibraryName library
        let s : Loading := { s with opened := s.opened ++ [⟨library, name⟩, ⟨library, full⟩] }
        (.notFound, s.setError (addSearchPathsToError attemptedPaths .manifest
          ("Could not load `" ++ String.ofList library ++ "`: dlopen() failed: " ++ what ++
            "\ndlopen() failed: " ++ what' ++ if note = "" then "" else "\n" ++ note)))

/-! ## Manifests -/

/-- `at_path` of two keys: what is under the second one in the table under the first. -/
def TomlTable.atPath (config : TomlTable) (table key : List Char) : Option TomlNode :=
  match config.find table with
  | some (.table entries) => entries.find key
  | _ => none

/-- `value_or(""s)`. -/
def textOr : Option TomlNode → List Char
  | some (.value (.string text)) => text
  | _ => []

/-- `config["manifest_version"].value_or(int64_t(1))`. -/
def manifestVersion (m : Loader) (config : TomlTable) : Int :=
  match config.find "manifest_version".toList with
  | some (.value value) => (m.integerValue value).getD 1
  | _ => 1

/-- The end of `LoadDriverManifest`: the path of the library. -/
def manifestPath (m : Loader) (manifest : List Char) (config : TomlTable) (s : Loading) :
    AdbcStatusCode × Loading :=
  let file := String.ofList manifest
  let arch := String.ofList m.currentArch
  match config.atPath "Driver".toList "shared".toList with
  | some (.table platforms) =>
    match platforms.find m.currentArch with
    | none => (.notFound, s.setError ("Driver path not found in manifest '" ++ file ++
        "' for current architecture '" ++ arch ++ "'. Architectures found:" ++
        String.ofList (platforms.keys.flatMap (' ' :: ·))))
    | some (.value (.string path)) =>
      if path = [] then (.invalidArgument, s.setError ("Driver path is an empty string in manifest '" ++
        file ++ "' for current architecture '" ++ arch ++ "'"))
      else (.ok, { s with info := { s.info with libPath := path } })
    | some _ => (.invalidArgument, s.setError ("Driver path not found in manifest '" ++ file ++
        "' for current architecture '" ++ arch ++ "'. Value was not a string"))
  | some (.value (.string path)) =>
    let s := { s with info := { s.info with libPath := path } }
    if path = [] then
      (.invalidArgument, s.setError ("Driver path is an empty string in manifest '" ++ file ++ "'"))
    else (.ok, s)
  | _ => (.invalidArgument, s.setError ("Driver path not defined in manifest '" ++ file ++
      "'. `Driver.shared` must be a string or table"))

/-- `LoadDriverManifest`.  The entry point is set before it is known whether there is a library. -/
def loadDriverManifest (m : Loader) (manifest : List Char) (s : Loading) :
    AdbcStatusCode × Loading :=
  match m.parseFile manifest with
  | .error what => (.invalidArgument, s.setError ("Could not open manifest. " ++ what ++
      ". Manifest: " ++ String.ofList manifest))
  | .ok config =>
    let version := manifestVersion m config
    if version ≠ 1 then
      (.invalidArgument, s.setError ("Driver manifest version '" ++ toString version ++
        "' is not supported by this driver manager."))
    else
      let entrypoint := config.atPath "Driver".toList "entrypoint".toList
      let s := { s with info := { s.info with entrypoint := textOr entrypoint } }
      match entrypoint with
      | none | some (.value (.string _)) => manifestPath m manifest config s
      | some _ => (.invalidArgument, s.setError ("Driver entrypoint not a string in manifest '" ++
          String.ofList manifest ++ "'"))

/-! ## The search -/

/-- The bits of `AdbcLoadFlags`, each as a flag of its own. -/
structure LoadFlags where
  searchEnv : Bool
  searchUser : Bool
  searchSystem : Bool
  allowRelativePaths : Bool

/-- The bits of a number, as the functions of the driver manager pass them on. -/
def LoadFlags.ofNat (flags : Nat) : LoadFlags :=
  ⟨flags.testBit 0, flags.testBit 1, flags.testBit 2, flags.testBit 3⟩

/-- The directory of a user for drivers. -/
def userDriversDir (getenv : List Char → Option (List Char)) : List Char :=
  joinPath (userConfigDir getenv) "drivers".toList

/-- `InternalAdbcSystemConfigDir`. -/
def systemConfigDir : List Char := "/etc/adbc/drivers".toList

/-- A directory for the search, or a note that it does not exist. -/
def directoryOr (m : Machine) (source : SearchPathSource) (directory : List Char) :
    Except String SearchPaths := do
  let there ← m.isThere directory
  return [(if there then source else .doesNotExist, directory)]

/-- `GetSearchPaths`. -/
def getSearchPaths (m : Machine) (levels : LoadFlags) : Except String SearchPaths := do
  let env := if levels.searchEnv then getEnvPaths m.getenv "ADBC_DRIVER_PATH".toList else []
  let user ← if levels.searchUser then directoryOr m .user (userDriversDir m.getenv) else pure []
  let system ← if levels.searchSystem then directoryOr m .system systemConfigDir else pure []
  return env ++ user ++ system

/-- What has become of a directory of the search: whether it has ended there, and what is said of
it. -/
inductive Tried where
  /-- The driver is loaded from this directory, and the search ends. -/
  | loaded
  /-- There is a manifest, but its library is not loaded. -/
  | unloadable (note : String)
  /-- There is a manifest that is none. -/
  | broken
  /-- There is nothing, or a manifest for another computer. -/
  | nothing (note : Option String)
  /-- The system cannot tell whether there is a manifest. -/
  | thrown (what : String)

/-- What is said of a manifest that does not help. -/
def foundNote (manifest : List Char) (otherwise : String) (message : Option String) : String :=
  "found " ++ String.ofList manifest ++ (message.map (" but: " ++ ·)).getD otherwise

/-- A library without a manifest.  The error is not passed on. -/
def tryLibrary (m : Loader) (library : List Char) (note : Option String) (s : Loading) :
    Tried × Loading :=
  let (status, s') := load m library [] s
  if status = .ok then
    (.loaded, { s' with message := s.message, info := { s'.info with libPath := library } })
  else (.nothing note, { s' with message := s.message })

/-- The body of the loop of `SearchPathsForDriver`, but for the message of a broken manifest. -/
def tryDirectory (m : Loader) (driverPath directory : List Char) (s : Loading) : Tried × Loading :=
  let manifest := replaceExtension (joinPath directory driverPath) tomlExtension
  -- `Load` is to add the suffix
  let library := replaceExtension manifest []
  match m.isThere manifest with
  | .error what => (.thrown what, s)
  | .ok true =>
    let (status, s') := loadDriverManifest m manifest { s with message := none }
    if status = .ok then
      let (status, s') := load m s'.info.libPath [] s'
      if status = .ok then (.loaded, { s' with message := s.message })
      else (.unloadable (foundNote manifest " could not load the driver it specified" s'.message),
        { s' with message := s.message })
    else if status = .invalidArgument then (.broken, s')
    else tryLibrary m library
      (some (foundNote manifest " which did not define a driver for this platform" s'.message))
      { s' with message := s.message }
  | .ok false => tryLibrary m library none s

/-- The message of a broken manifest, with the search paths. -/
def Loading.passOn (s : Loading) (searchPaths : SearchPaths) : Option String → Loading
  | some message => s.setError (addSearchPathsToError searchPaths .manifest message)
  | none => s

@[simp] theorem Loading.passOn_opened (s : Loading) (searchPaths : SearchPaths)
    (message : Option String) : (s.passOn searchPaths message).opened = s.opened := by
  cases message <;> rfl

@[simp] theorem Loading.passOn_handle (s : Loading) (searchPaths : SearchPaths)
    (message : Option String) : (s.passOn searchPaths message).handle = s.handle := by
  cases message <;> rfl

/-- What is said of a directory in the end. -/
def noteOf (note : String) : SearchPaths := [(.otherError, note.toList)]

/-- `SearchPathsForDriver`: the status or the exception, and the search paths with what is said of
them. -/
def searchPathsForDriver (m : Loader) (driverPath : List Char) (searchPaths : SearchPaths) :
    SearchPaths → SearchPaths → Loading → Except String AdbcStatusCode × SearchPaths × Loading
  | [], extra, s => (.ok .notFound, searchPaths ++ extra, s)
  | (source, directory) :: rest, extra, s =>
    if source.isNote then searchPathsForDriver m driverPath searchPaths rest extra s
    else
      match tryDirectory m driverPath directory s with
      | (.thrown what, s') => (.error what, searchPaths, s')
      | (.loaded, s') => (.ok .ok, searchPaths, s')
      | (.unloadable note, s') => (.ok .notFound, searchPaths ++ (extra ++ noteOf note), s')
      | (.broken, s') =>
        (.ok .invalidArgument, searchPaths ++ extra,
          Loading.passOn { s' with message := s.message } (searchPaths ++ extra) s'.message)
      | (.nothing note, s') =>
        searchPathsForDriver m driverPath searchPaths rest
          (extra ++ note.elim [] noteOf) s'

/-- The search paths that go first: those of the environment, and the additional ones. -/
def firstSearchPaths (m : Machine) (flags : LoadFlags) (additional : List (List Char)) :
    Except String SearchPaths := do
  let env ← getSearchPaths m ⟨flags.searchEnv, false, false, false⟩
  return env ++ (if flags.searchEnv then if env = [] then [(.unset, "ADBC_DRIVER_PATH".toList)] else []
    else [(.disabledAtRunTime, "ADBC_DRIVER_PATH (enable ADBC_LOAD_FLAG_SEARCH_ENV)".toList)]) ++
    additional.map (.additional, ·) ++
      if flags.searchEnv then [(.disabledAtCompileTime, "Conda prefix".toList)] else []

/-- What is said of the directories that are not looked at. -/
def disabledSearchPaths (m : Machine) (flags : LoadFlags) : SearchPaths :=
  (if flags.searchUser then [] else [(.disabledAtRunTime, "user config dir ".toList ++
      userDriversDir m.getenv ++ " (enable ADBC_LOAD_FLAG_SEARCH_USER)".toList)]) ++
    if flags.searchSystem then [] else [(.disabledAtRunTime, "system config dir ".toList ++
      systemConfigDir ++ " (enable ADBC_LOAD_FLAG_SEARCH_SYSTEM)".toList)]

/-- `FindDriver`. -/
def findDriver (m : Loader) (driverPath : List Char) (flags : LoadFlags)
    (additional : List (List Char)) (s : Loading) : Except String AdbcStatusCode × Loading :=
  if driverPath = [] then (.ok .invalidArgument, s.setError "Driver path is empty")
  else
    match firstSearchPaths m.toMachine flags additional with
    | .error what => (.error what, s)
    | .ok first =>
      match searchPathsForDriver m driverPath first first [] s with
      | (returned, first, s) =>
        if returned ≠ .ok .notFound then (returned, s)
        else
          match getSearchPaths m.toMachine { flags with searchEnv := false } with
          | .error what => (.error what, s)
          | .ok more =>
            match searchPathsForDriver m driverPath more more [] s with
            | (returned, more, s) =>
              if returned ≠ .ok .notFound then (returned, s)
              else returns (load m driverPath
                (first ++ (more ++ disabledSearchPaths m.toMachine flags))
                { s with info := { s.info with libPath := driverPath } })

/-- A path is loaded as it is. -/
def loadPath (m : Loader) (path : List Char) (s : Loading) :
    Except String AdbcStatusCode × Loading :=
  returns (load m path [] { s with info := { s.info with libPath := path } })

/-- `ManagedLibrary::GetDriverInfo`.  Behind the second branch the name has no extension, so that
the check for a library with an unknown one is never reached. -/
def getDriverInfo (m : Loader) (driverName : List Char) (flags : LoadFlags)
    (additional : List (List Char)) (s : Loading) : Except String AdbcStatusCode × Loading :=
  if driverName = [] then (.ok .invalidArgument, s.setError "Driver name is empty")
  else if extension driverName ≠ [] then
    if isAbsolute driverName = false ∧ flags.allowRelativePaths = false then
      (.ok .invalidArgument,
        s.setError "Driver path is relative and relative paths are not allowed")
    else if extension driverName = tomlExtension then
      let (status, s) := loadDriverManifest m driverName s
      if status = .ok then returns (load m s.info.libPath [] s) else (.ok status, s)
    else loadPath m driverName s
  else if isAbsolute driverName then
    let manifest := replaceExtension driverName tomlExtension
    match m.isThere manifest with
    | .error what => (.error what, s)
    | .ok true =>
      let (status, s) := loadDriverManifest m manifest s
      if status = .ok then returns (load m s.info.libPath [] s)
      else loadPath m (replaceExtension manifest []) s
    | .ok false => loadPath m (replaceExtension manifest []) s
  else findDriver m driverName flags additional s

/-! ## The entry point -/

/-- A token of a name in the entry point: its first character in upper case. -/
def capitalize : List Char → List Char
  | [] => []
  | c :: cs => c.toUpper :: cs

/-- `InternalAdbcDriverManagerDefaultEntrypoint`. -/
def defaultEntrypoint (driver : List Char) : List Char :=
  let filename := (driver.rtakeWhile fun c => c ≠ '/' ∧ c ≠ '\\').takeWhile (· ≠ '.')
  let filename := if libraryPrefix <+: filename then filename.drop libraryPrefix.length else filename
  let entrypoint := (filename.splitOnP fun c => c = '-' ∨ c = '_').flatMap capitalize
  (if "Adbc".toList <+: entrypoint then entrypoint else "Adbc".toList ++ entrypoint) ++
    "Init".toList

/-- `ManagedLibrary::Lookup`. -/
def lookup (m : Loader) (name : List Char) (s : Loading) : Option Nat × Loading :=
  match m.dlsym s.handle (cString name) with
  | .ok function => (some function, s)
  | .error what => (none, s.appendError ("dlsym(" ++ String.ofList (cString name) ++
      ") failed: " ++ what))

/-- `AdbcFindLoadDriver`, up to the call of the function that is found. -/
def findLoadDriver (m : Loader) (driverName : List Char) (entrypoint : Option (List Char))
    (loadFlags : Nat) (additional : Option (List Char)) :
    Except String AdbcStatusCode × Option Nat × Loading :=
  let start : Loading := ⟨⟨[], (entrypoint.map cString).getD []⟩, none, none, []⟩
  let paths := additional.elim [] fun list => parsePath (cString list)
  match getDriverInfo m (cString driverName) (LoadFlags.ofNat loadFlags) paths start with
  | (returned, s) =>
    if returned ≠ .ok .ok then (returned, none, s)
    else
      let found := if s.info.entrypoint ≠ [] then lookup m s.info.entrypoint s
        else
          match lookup m (defaultEntrypoint s.info.libPath) s with
          | (some function, s) => (some function, s)
          | (none, s) => lookup m "AdbcDriverInit".toList s
      (.ok (if found.1.isSome then .ok else .internal), found)

/-! ## What is opened -/

/-- The stem of a file is one that the extension does not connect to. -/
def Unsupported (path : List Char) : Prop :=
  "quack".toList <:+: stem path ∨ "duckdb".toList <:+: stem path

/-- A name under which a library is opened. -/
def NameOf (library path : List Char) : Prop :=
  path = cString library ∨ path = cString (fullDriverName library)

/-- **What the loader may do**: open libraries that are supported, and keep the handle of one. -/
structure Opens (m : Loader) (s s' : Loading) : Prop where
  opened : ∃ more, s'.opened = s.opened ++ more ∧
    ∀ opening ∈ more, ¬ Unsupported opening.library ∧ NameOf opening.library opening.path
  handle : s'.handle = s.handle ∨
    ∃ opening ∈ s'.opened, ∃ handle, s'.handle = some handle ∧
      m.dlopen opening.path = .ok handle

section Opens
variable {m : Loader} {s s' s'' : Loading}

/-- A step that opens nothing and leaves the handle as it is. -/
theorem Opens.quiet (hopened : s'.opened = s.opened) (hhandle : s'.handle = s.handle) :
    Opens m s s' :=
  ⟨⟨[], by rw [hopened, List.append_nil], by simp⟩, .inl hhandle⟩

theorem Opens.trans (h : Opens m s s') (h' : Opens m s' s'') : Opens m s s'' := by
  obtain ⟨more, hmore, hall⟩ := h.opened
  obtain ⟨more', hmore', hall'⟩ := h'.opened
  refine ⟨⟨more ++ more', by rw [hmore', hmore, List.append_assoc], fun path hpath => ?_⟩, ?_⟩
  · rcases List.mem_append.mp hpath with hpath | hpath
    · exact hall path hpath
    · exact hall' path hpath
  · rcases h'.handle with hsame | hnew
    · rcases h.handle with hold | ⟨path, hpath, hopened⟩
      · exact .inl (hsame.trans hold)
      · exact .inr ⟨path, by rw [hmore']; exact List.mem_append_left _ hpath, by rwa [hsame]⟩
    · exact .inr hnew

theorem load_opens (library : List Char) (attemptedPaths : SearchPaths) (s : Loading) :
    Opens m s (load m library attemptedPaths s).2 := by
  have hnames : NameOf library (cString library) ∧ NameOf library (cString (fullDriverName library)) :=
    ⟨.inl rfl, .inr rfl⟩
  rw [load]
  split
  · exact .quiet rfl rfl
  · rename_i hquack
    split
    · exact .quiet rfl rfl
    · rename_i hduckdb
      have hlibrary : ¬ Unsupported library := by
        rintro (h | h)
        · exact hquack h
        · exact hduckdb h
      simp only
      split
      · rename_i handle hopen
        exact ⟨⟨_, rfl, List.forall_mem_singleton.mpr ⟨hlibrary, hnames.1⟩⟩, .inr
          ⟨⟨library, cString library⟩, by simp, handle, rfl, hopen⟩⟩
      · have hboth : ∀ opening ∈ [(⟨library, cString library⟩ : Opening),
            ⟨library, cString (fullDriverName library)⟩],
            ¬ Unsupported opening.library ∧ NameOf opening.library opening.path :=
          List.forall_mem_cons.mpr ⟨⟨hlibrary, hnames.1⟩,
            List.forall_mem_singleton.mpr ⟨hlibrary, hnames.2⟩⟩
        split
        · rename_i handle hopen
          exact ⟨⟨_, rfl, hboth⟩, .inr
            ⟨⟨library, cString (fullDriverName library)⟩, by simp, handle, rfl, hopen⟩⟩
        · exact ⟨⟨_, rfl, hboth⟩, .inl rfl⟩

theorem manifestPath_quiet (manifest : List Char) (config : TomlTable) (s : Loading) :
    (manifestPath m manifest config s).2.opened = s.opened ∧
      (manifestPath m manifest config s).2.handle = s.handle := by
  rw [manifestPath]
  simp only
  split
  · split
    · exact ⟨rfl, rfl⟩
    · split <;> exact ⟨rfl, rfl⟩
    · exact ⟨rfl, rfl⟩
  · split <;> exact ⟨rfl, rfl⟩
  · exact ⟨rfl, rfl⟩

theorem loadDriverManifest_quiet (manifest : List Char) (s : Loading) :
    (loadDriverManifest m manifest s).2.opened = s.opened ∧
      (loadDriverManifest m manifest s).2.handle = s.handle := by
  rw [loadDriverManifest]
  split
  · exact ⟨rfl, rfl⟩
  · simp only
    split
    · exact ⟨rfl, rfl⟩
    · split
      · exact manifestPath_quiet ..
      · exact manifestPath_quiet ..
      · exact ⟨rfl, rfl⟩

theorem loadDriverManifest_opens (manifest : List Char) (s : Loading) :
    Opens m s (loadDriverManifest m manifest s).2 :=
  .quiet (loadDriverManifest_quiet manifest s).1 (loadDriverManifest_quiet manifest s).2

/-- The message and the information are no matter. -/
theorem Opens.congr (h : Opens m s s') (hopened : s''.opened = s'.opened)
    (hhandle : s''.handle = s'.handle) : Opens m s s'' :=
  h.trans (.quiet hopened hhandle)

theorem tryLibrary_opens (library : List Char) (note : Option String) (s : Loading) :
    Opens m s (tryLibrary m library note s).2 := by
  have hload := load_opens (m := m) library [] s
  rw [tryLibrary]
  generalize load m library [] s = result at hload ⊢
  simp only
  split
  · exact hload.congr rfl rfl
  · exact hload.congr rfl rfl

theorem tryDirectory_opens (driverPath directory : List Char) (s : Loading) :
    Opens m s (tryDirectory m driverPath directory s).2 := by
  have hstart : Opens m s { s with message := none } := .quiet rfl rfl
  rw [tryDirectory]
  generalize replaceExtension (joinPath directory driverPath) tomlExtension = manifest
  simp only
  split
  · exact .quiet rfl rfl
  · have hmanifest := hstart.trans (loadDriverManifest_opens manifest { s with message := none })
    generalize loadDriverManifest m manifest { s with message := none } = read at hmanifest ⊢
    split
    · have hload := hmanifest.trans (load_opens read.2.info.libPath [] read.2)
      generalize load m read.2.info.libPath [] read.2 = result at hload ⊢
      split
      · exact hload.congr rfl rfl
      · exact hload.congr rfl rfl
    · split
      · exact hmanifest
      · have hread : Opens m s { read.2 with message := s.message } := hmanifest.congr rfl rfl
        exact hread.trans (tryLibrary_opens _ _ _)
  · exact tryLibrary_opens _ _ _

theorem searchPathsForDriver_opens (driverPath : List Char) (searchPaths rest extra : SearchPaths)
    (s : Loading) :
    Opens m s (searchPathsForDriver m driverPath searchPaths rest extra s).2.2 := by
  induction rest generalizing extra s with
  | nil => exact .quiet rfl rfl
  | cons path rest ih =>
    obtain ⟨source, directory⟩ := path
    rw [searchPathsForDriver]
    split
    · exact ih extra s
    · have htry := tryDirectory_opens (m := m) driverPath directory s
      generalize tryDirectory m driverPath directory s = result at htry ⊢
      obtain ⟨tried, s'⟩ := result
      cases tried with
      | thrown what => exact htry
      | loaded => exact htry
      | unloadable note => exact htry
      | broken =>
        simp only
        exact htry.congr (Loading.passOn_opened ..) (Loading.passOn_handle ..)
      | nothing note => exact htry.trans (ih _ s')

theorem findDriver_opens (driverPath : List Char) (flags : LoadFlags)
    (additional : List (List Char)) (s : Loading) :
    Opens m s (findDriver m driverPath flags additional s).2 := by
  rw [findDriver]
  split
  · exact .quiet rfl rfl
  cases firstSearchPaths m.toMachine flags additional with
  | error what => exact .quiet rfl rfl
  | ok first =>
    have hfirst := searchPathsForDriver_opens (m := m) driverPath first first [] s
    simp only
    generalize searchPathsForDriver m driverPath first first [] s = result at hfirst ⊢
    split
    · exact hfirst
    cases getSearchPaths m.toMachine { flags with searchEnv := false } with
    | error what => exact hfirst
    | ok more =>
      have hmore := hfirst.trans (searchPathsForDriver_opens (m := m) driverPath more more [] result.2.2)
      simp only
      generalize searchPathsForDriver m driverPath more more [] result.2.2 = result' at hmore ⊢
      split
      · exact hmore
      · have hnamed : Opens m s { result'.2.2 with
            info := { result'.2.2.info with libPath := driverPath } } := hmore.congr rfl rfl
        exact hnamed.trans (load_opens driverPath _ _)

theorem loadPath_opens (path : List Char) (s : Loading) : Opens m s (loadPath m path s).2 := by
  have hstart : Opens m s { s with info := { s.info with libPath := path } } := .quiet rfl rfl
  exact hstart.trans (load_opens path [] _)

theorem getDriverInfo_opens (driverName : List Char) (flags : LoadFlags)
    (additional : List (List Char)) (s : Loading) :
    Opens m s (getDriverInfo m driverName flags additional s).2 := by
  have hmanifest : ∀ manifest (s : Loading) (library : List Char),
      Opens m s (loadDriverManifest m manifest s).2 ∧
        Opens m s (load m library [] (loadDriverManifest m manifest s).2).2 := by
    intro manifest s library
    have hread := loadDriverManifest_opens (m := m) manifest s
    exact ⟨hread, hread.trans (load_opens library [] _)⟩
  rw [getDriverInfo]
  simp only
  by_cases hempty : driverName = []
  · rw [if_pos hempty]
    exact .quiet rfl rfl
  rw [if_neg hempty]
  by_cases hextension : extension driverName ≠ []
  · rw [if_pos hextension]
    by_cases hrelative : isAbsolute driverName = false ∧ flags.allowRelativePaths = false
    · rw [if_pos hrelative]
      exact .quiet rfl rfl
    rw [if_neg hrelative]
    by_cases htoml : extension driverName = tomlExtension
    · rw [if_pos htoml]
      by_cases hok : (loadDriverManifest m driverName s).1 = .ok
      · rw [if_pos hok]
        exact (hmanifest driverName s _).2
      · rw [if_neg hok]
        exact (hmanifest driverName s []).1
    · rw [if_neg htoml]
      exact loadPath_opens driverName s
  rw [if_neg hextension]
  by_cases habsolute : isAbsolute driverName = true
  · rw [if_pos habsolute]
    generalize replaceExtension driverName tomlExtension = manifest
    cases m.isThere manifest with
    | error what => exact .quiet rfl rfl
    | ok there =>
      cases there with
      | true =>
        simp only
        by_cases hok : (loadDriverManifest m manifest s).1 = .ok
        · rw [if_pos hok]
          exact (hmanifest manifest s _).2
        · rw [if_neg hok]
          exact (hmanifest manifest s []).1.trans (loadPath_opens _ _)
      | false => exact loadPath_opens _ s
  · rw [if_neg habsolute]
    exact findDriver_opens driverName flags additional s

theorem lookup_quiet (name : List Char) (s : Loading) :
    (lookup m name s).2.opened = s.opened ∧ (lookup m name s).2.handle = s.handle := by
  rw [lookup]
  split
  · exact ⟨rfl, rfl⟩
  · rw [Loading.appendError]
    split <;> exact ⟨rfl, rfl⟩

theorem findLoadDriver_opens (driverName : List Char) (entrypoint : Option (List Char))
    (loadFlags : Nat) (additional : Option (List Char)) :
    Opens m ⟨⟨[], (entrypoint.map cString).getD []⟩, none, none, []⟩
      (findLoadDriver m driverName entrypoint loadFlags additional).2.2 := by
  rw [findLoadDriver]
  have hinfo := getDriverInfo_opens (m := m) (cString driverName) (LoadFlags.ofNat loadFlags)
    (additional.elim [] fun list => parsePath (cString list))
    ⟨⟨[], (entrypoint.map cString).getD []⟩, none, none, []⟩
  simp only
  generalize getDriverInfo m _ _ _ _ = result at hinfo ⊢
  have hlookup : ∀ name, Opens m ⟨⟨[], (entrypoint.map cString).getD []⟩, none, none, []⟩
      (lookup m name result.2).2 := fun name =>
    hinfo.congr (lookup_quiet name result.2).1 (lookup_quiet name result.2).2
  split
  · exact hinfo
  · split
    · exact hlookup _
    · have hdefault := hlookup (defaultEntrypoint result.2.info.libPath)
      generalize lookup m (defaultEntrypoint result.2.info.libPath) result.2 = found at hdefault ⊢
      obtain ⟨function, s⟩ := found
      cases function with
      | some function => exact hdefault
      | none => exact hdefault.congr (lookup_quiet _ s).1 (lookup_quiet _ s).2

end Opens

/-! ### Words in names

Only the first name of a library is looked at.  It is enough for the second one as well, unless
the word is in what counts as the extension. -/

/-- A word in two texts is in one of them, or in both. -/
theorem infix_append_cases {w a b : List Char} (h : w <:+: a ++ b) :
    w <:+: a ∨ w <:+: b ∨
      ∃ w₁ w₂, w = w₁ ++ w₂ ∧ w₁ ≠ [] ∧ w₂ ≠ [] ∧ w₁ <:+ a ∧ w₂ <+: b := by
  obtain ⟨front, back, h⟩ := h
  rcases List.append_eq_append_iff.mp h with ⟨c, ha, -⟩ | ⟨c, hfront, hb⟩
  · exact .inl ⟨front, c, ha.symm⟩
  · rcases List.append_eq_append_iff.mp hfront with ⟨d, ha, hw⟩ | ⟨d, -, hc⟩
    · by_cases hd : d = []
      · subst hd
        rw [hw]
        exact .inr (.inl ⟨[], back, hb.symm⟩)
      · by_cases hc : c = []
        · subst hc
          rw [hw, List.append_nil]
          exact .inl ⟨front, [], by rw [List.append_nil, ha]⟩
        · exact .inr (.inr ⟨d, c, hw, hd, hc, ⟨front, ha.symm⟩, ⟨back, hb.symm⟩⟩)
    · exact .inr (.inl ⟨d, back, by rw [hb, hc]⟩)

/-- A word without a dot is not across the dot of an extension. -/
theorem infix_dot {w a b : List Char} (hdot : '.' ∉ w) (hb : b = [] ∨ b.head? = some '.')
    (h : w <:+: a ++ b) : w <:+: a ∨ w <:+: b := by
  rcases infix_append_cases h with h | h | ⟨w₁, w₂, hw, -, hne, -, ⟨back, hback⟩⟩
  · exact .inl h
  · exact .inr h
  · obtain ⟨c, rest, rfl⟩ := List.exists_cons_of_ne_nil hne
    rcases hb with rfl | hhead
    · cases hback
    · rw [← hback] at hhead
      obtain rfl : c = '.' := Option.some.inj hhead
      exact absurd (hw ▸ List.mem_append_right _ List.mem_cons_self) hdot

/-- A word that begins with no character of a text is behind it. -/
theorem infix_behind {w a b : List Char} {c : Char} {cs : List Char} (hw : w = c :: cs)
    (hc : c ∉ a) (h : w <:+: a ++ b) : w <:+: b := by
  rcases infix_append_cases h with h | h | ⟨w₁, w₂, hsplit, hne, -, h₁, -⟩
  · exact absurd (h.subset (by rw [hw]; exact List.mem_cons_self)) hc
  · exact h
  · obtain ⟨x, rest, rfl⟩ := List.exists_cons_of_ne_nil hne
    obtain rfl : c = x := (List.cons.inj (hw.symm.trans hsplit)).1
    exact absurd (h₁.subset List.mem_cons_self) hc

/-- The second name of a library: something is in front of it, and something behind. -/
theorem fullDriverName_eq (library : List Char) : ∃ front back,
    fullDriverName library = front ++ (library ++ back) ∧
      (front = [] ∨ front = libraryPrefix) ∧ (back = [] ∨ back = librarySuffix) := by
  rw [fullDriverName]
  by_cases hfront : libraryPrefix <+: library
  · simp only [if_pos hfront]
    split
    · exact ⟨[], librarySuffix, rfl, .inl rfl, .inr rfl⟩
    · exact ⟨[], [], by simp, .inl rfl, .inl rfl⟩
  · simp only [if_neg hfront]
    split
    · exact ⟨libraryPrefix, librarySuffix, List.append_assoc .., .inr rfl, .inr rfl⟩
    · exact ⟨libraryPrefix, [], by simp, .inr rfl, .inl rfl⟩

/-- A word in the stem of the second name is in the first one. -/
theorem infix_full {w library : List Char} {c : Char} {cs : List Char} (hw : w = c :: cs)
    (hc : c ∉ libraryPrefix) (hdot : '.' ∉ w) (hsuffix : ¬ w <:+: librarySuffix)
    (h : w <:+: stem (fullDriverName library)) :
    w <:+: stem library ∨ w <:+: extension library := by
  obtain ⟨front, back, hfull, hfront, hback⟩ := fullDriverName_eq library
  have hname : w <:+: fileName (front ++ library) ++ back := by
    have hslash : '/' ∉ back := by
      rcases hback with rfl | rfl <;> decide
    rw [← fileName_append _ hslash, List.append_assoc, ← hfull]
    exact h.trans (stem_starts _).isInfix
  have hbegins : back = [] ∨ back.head? = some '.' := by
    rcases hback with rfl | rfl
    · exact .inl rfl
    · exact .inr rfl
  have hlibrary : w <:+: fileName library := by
    have hboth : w <:+: fileName (front ++ library) := by
      rcases infix_dot hdot hbegins hname with h | h
      · exact h
      · rcases hback with rfl | rfl
        · rw [List.infix_nil, hw] at h
          cases h
        · exact absurd h hsuffix
    have hslash : '/' ∉ front := by
      rcases hfront with rfl | rfl <;> decide
    rcases fileName_front_cases hslash library with he | he
    · rwa [he] at hboth
    · rw [he] at hboth
      refine infix_behind hw ?_ hboth
      rcases hfront with rfl | rfl
      · exact List.not_mem_nil
      · exact hc
  rw [stem_append_extension] at hlibrary
  exact infix_dot hdot (extension_head library) hlibrary

/-- **What is not connected to.**  Every path that is passed to `dlopen` while a driver is looked
for is supported, unless the library that it was made from has a null character in its path or a
word in its extension; and that library is supported itself. -/
theorem forbidden_opened (m : Loader) (driverName : List Char) (entrypoint : Option (List Char))
    (loadFlags : Nat) (additional : Option (List Char)) :
    ∀ opening ∈ (findLoadDriver m driverName entrypoint loadFlags additional).2.2.opened,
      Unsupported opening.path → ¬ Unsupported opening.library ∧
        NameOf opening.library opening.path ∧
        ('\x00' ∈ opening.library ∨ "quack".toList <:+: extension opening.library ∨
          "duckdb".toList <:+: extension opening.library) := by
  intro opening hopening hunsupported
  obtain ⟨more, hmore, hall⟩ :=
    (findLoadDriver_opens (m := m) driverName entrypoint loadFlags additional).opened
  rw [hmore, List.nil_append] at hopening
  obtain ⟨hlibrary, hname⟩ := hall opening hopening
  refine ⟨hlibrary, hname, ?_⟩
  obtain ⟨library, path⟩ := opening
  simp only at hlibrary hname hunsupported ⊢
  by_cases hnul : '\x00' ∈ library
  · exact .inl hnul
  · refine .inr ?_
    -- without a null character the second name is the first one with something added at its ends
    have hfullNul : '\x00' ∉ fullDriverName library := by
      obtain ⟨front, back, hfull, hfront, hback⟩ := fullDriverName_eq library
      rw [hfull, List.mem_append, List.mem_append]
      rintro (h | h | h)
      · rcases hfront with rfl | rfl
        · cases h
        · exact absurd h (by decide)
      · exact hnul h
      · rcases hback with rfl | rfl
        · cases h
        · exact absurd h (by decide)
    rw [NameOf, cString_eq_self hnul, cString_eq_self hfullNul] at hname
    rcases hname with rfl | rfl
    · exact absurd hunsupported hlibrary
    · rcases hunsupported with h | h
      · rcases infix_full (c := 'q') rfl (by decide) (by decide) (by decide) h with h | h
        · exact absurd (.inl h) hlibrary
        · exact .inl h
      · rcases infix_full (c := 'd') rfl (by decide) (by decide) (by decide) h with h | h
        · exact absurd (.inr h) hlibrary
        · exact .inr h

/-- A computer without libraries, on which nothing that is opened is found. -/
def bareLoader : Loader where
  getenv _ := none
  isThere _ := .ok false
  parseFile _ := .error "no such file"
  order := List.reverse
  order_perm entries := List.reverse_perm entries
  currentArch := "linux_amd64".toList
  integerValue _ := none
  dlopen _ := .error "no such file"
  dlsym _ _ := .error "no such symbol"

/-- The name `a.quack` has a word in its extension, and so the supported name becomes an unsupported
path that is opened. -/
theorem unknown_extension_opened :
    Unsupported "liba.quack.so".toList ∧ ¬ Unsupported "a.quack".toList ∧
      ⟨"a.quack".toList, "liba.quack.so".toList⟩ ∈
        (findLoadDriver bareLoader "a.quack".toList none loadFlagDefault none).2.2.opened := by
  have hopened : ⟨"a.quack".toList, "liba.quack.so".toList⟩ ∈
      (findLoadDriver bareLoader "a.quack".toList none loadFlagDefault none).2.2.opened := by decide
  have hunsupported : Unsupported "liba.quack.so".toList := .inl ⟨"liba.".toList, [], by decide⟩
  exact ⟨hunsupported, (forbidden_opened bareLoader "a.quack".toList none loadFlagDefault none _
    hopened hunsupported).1, hopened⟩

end DriverManager
end AdbcClient
