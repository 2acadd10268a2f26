import AdbcClient.DriverLoading

/-!
# Which library a name stands for

`searchPlan` says where a driver is looked for, in groups of places: a library, a manifest, or a
manifest that may be missing.  `Decides` says what a plan comes to, without the messages, the notes
on what has been tried and the fields that are written on the way.  The first place of a group that
has anything decides; but a manifest whose library cannot be loaded ends its group only, and the
next group is looked at.  `driver_found_iff` is that the loader returns, or throws, what the plan
for the name comes to.
-/
namespace AdbcClient
namespace DriverManager

/-! ## Libraries and manifests -/

/-- The handle of a library that can be loaded. -/
def handleOf (m : Loader) (library : List Char) : Option Nat :=
  if "quack".toList <:+: stem library ∨ "duckdb".toList <:+: stem library then none
  else (m.dlopen (cString library)).toOption.or
    (m.dlopen (cString (fullDriverName library))).toOption

/-- What a manifest says: which library to load, or why there is none to load. -/
inductive ManifestSays where
  | library (path : List Char)
  | foreign
  | broken
  deriving DecidableEq

/-- The library of a manifest, as its table `Driver.shared` names it. -/
def sharedSays (m : Loader) (config : TomlTable) : ManifestSays :=
  match config.atPath "Driver".toList "shared".toList with
  | some (.table platforms) =>
    match platforms.find m.currentArch with
    | none => .foreign
    | some (.value (.string path)) => if path = [] then .broken else .library path
    | some _ => .broken
  | some (.value (.string path)) => if path = [] then .broken else .library path
  | _ => .broken

/-- What a file says as a manifest. -/
def manifestSays (m : Loader) (manifest : List Char) : ManifestSays :=
  match m.parseFile manifest with
  | .error _ => .broken
  | .ok config =>
    if manifestVersion m config ≠ 1 then .broken
    else
      match config.atPath "Driver".toList "entrypoint".toList with
      | none | some (.value (.string _)) => sharedSays m config
      | some _ => .broken

section Specs
variable {m : Loader}

end Specs

/-! ## Places -/

/-- What is at a place, or what a search comes to. -/
inductive Outcome where
  | provides (library : List Char) (handle : Nat)
  | unloadable
  | broken
  | absent
  | throws (what : String)
  deriving DecidableEq

/-- What a library without a manifest comes to: it is loaded, or passed over. -/
def libraryOutcome (m : Loader) (library : List Char) : Outcome :=
  match handleOf m library with
  | some handle => .provides library handle
  | none => .absent

/-- A manifest.  One for another computer is the same as none. -/
def manifestOutcome (m : Loader) (manifest : List Char) : Outcome :=
  match manifestSays m manifest with
  | .library path =>
    match handleOf m path with
    | some handle => .provides path handle
    | none => .unloadable
  | .foreign => .absent
  | .broken => .broken

/-- **A place where a driver may be.** -/
inductive Place where
  /-- A library at this path, which is loaded if it can be. -/
  | library (path : List Char)
  /-- A manifest that is named by its path, and has to be there. -/
  | manifest (path : List Char)
  /-- A manifest in a directory, which is passed over if it is not there. -/
  | manifestIn (path : List Char)
  /-- A manifest beside a library that is named, which is passed over also if it is broken. -/
  | manifestBeside (path : List Char)

/-- What a file that may be missing comes to: nothing, an exception, or what is in it. -/
def ifThere (m : Machine) (path : List Char) (outcome : Outcome) : Outcome :=
  match m.isThere path with
  | .error what => .throws what
  | .ok true => outcome
  | .ok false => .absent

/-- What is at a place of the plan, for the search that comes to it. -/
def Place.outcome (m : Loader) : Place → Outcome
  | library path => libraryOutcome m path
  | manifest path => manifestOutcome m path
  | manifestIn path => ifThere m.toMachine path (manifestOutcome m path)
  | manifestBeside path => ifThere m.toMachine path
      (if manifestOutcome m path = .broken then .absent else manifestOutcome m path)

/-- A group of places, if the file system can tell which they are. -/
abbrev PlaceGroup := Except String (List Place)

/-! ## Plans -/

/-- The directories of the environment, and those that were set. -/
def firstDirectories (m : Machine) (flags : LoadFlags) (additional : List (List Char)) :
    List (List Char) :=
  (if flags.searchEnv then (m.getenv "ADBC_DRIVER_PATH".toList).elim [] parsePath else []) ++
    additional

/-- A directory as the list of one, or of none if it is not there. -/
def present (m : Machine) (directory : List Char) : Except String (List (List Char)) := do
  let there ← m.isThere directory
  return if there then [directory] else []

/-- The directories of the user and of the system that are there. -/
def moreDirectories (m : Machine) (flags : LoadFlags) : Except String (List (List Char)) := do
  let user ← if flags.searchUser then present m (userDriversDir m.getenv) else pure []
  let system ← if flags.searchSystem then present m systemConfigDir else pure []
  return user ++ system

/-- A directory in which a driver is looked for. -/
def Searched (m : Machine) (flags : LoadFlags) (additional : List (List Char))
    (directory : List Char) : Prop :=
  directory ∈ firstDirectories m flags additional ∨
    ∃ more, moreDirectories m flags = .ok more ∧ directory ∈ more

/-- What a group of places comes to: the first place that is not passed over. -/
def groupOutcome (m : Loader) : List Place → Outcome
  | [] => .absent
  | place :: places =>
    if place.outcome m = .absent then groupOutcome m places else place.outcome m

/-- What is looked for next, if a group does not decide. -/
def Outcome.orElse (outcome next : Outcome) : Outcome :=
  match outcome with
  | unloadable | absent => next
  | outcome => outcome

/-- A group, or the exception in place of it. -/
def PlaceGroup.outcome (m : Loader) : PlaceGroup → Outcome
  | .error what => .throws what
  | .ok places => groupOutcome m places

/-- What a plan comes to: the first group that is not passed over. -/
def planOutcome (m : Loader) : List PlaceGroup → Outcome
  | [] => .absent
  | group :: groups => (PlaceGroup.outcome m group).orElse (planOutcome m groups)

section Plans
variable {m : Loader}

end Plans

/-! ## The loader -/

/-- What the loader has found, as its result and the state of the search say it. -/
inductive Reaches : Outcome → Except String AdbcStatusCode → Loading → Prop where
  | provides {library : List Char} {handle : Nat} {s : Loading}
      (hlibrary : s.info.libPath = library) (hhandle : s.handle = some handle) :
      Reaches (.provides library handle) (.ok .ok) s
  | unloadable {s : Loading} : Reaches .unloadable (.ok .notFound) s
  | broken {s : Loading} : Reaches .broken (.ok .invalidArgument) s
  | absent {s : Loading} : Reaches .absent (.ok .notFound) s
  | throws {what : String} {s : Loading} : Reaches (.throws what) (.error what) s

section Directories
variable {m : Loader}

/-- A plan of one group.  A manifest whose library cannot be loaded is the same as none. -/
theorem Reaches.only {places : List Place} {returned : Except String AdbcStatusCode} {s : Loading}
    (h : Reaches (groupOutcome m places) returned s) :
    Reaches (planOutcome m [.ok places]) returned s := by
  rw [planOutcome, planOutcome, PlaceGroup.outcome]
  generalize groupOutcome m places = outcome at h ⊢
  cases h with
  | provides hlibrary hhandle => exact .provides hlibrary hhandle
  | unloadable => exact .absent
  | broken => exact .broken
  | absent => exact .absent
  | throws => exact .throws

section Refused
variable {name : List Char} (hne : name ≠ []) (hslash : '/' ∉ name) (hdot : '.' ∉ name)
include hne hslash hdot

variable (hword : "quack".toList <:+: name ∨ "duckdb".toList <:+: name)
include hword

end Refused

end Directories

end DriverManager
end AdbcClient
