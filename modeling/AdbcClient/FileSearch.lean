import AdbcClient.StatisticsLayout
import Mathlib.Data.List.DropRight

/-!
# Files, and where they are looked for

What the driver manager reads of the computer: the environment, TOML files, and the directories in
which a name is looked for (`adbc_driver_manager.cpp`, `adbc_driver_manager_internal.h`).  Paths
are those of `std::filesystem` where `/` is the separator.
-/
namespace AdbcClient
namespace DriverManager

/-! ## TOML -/

/-- A value that is no table.  The other ones are arrays, dates and times. -/
inductive TomlValue where
  | string (text : List Char)
  | integer (value : Int)
  | floatingPoint (value : Double)
  | boolean (value : Bool)
  | other

/-- `toml::table`, in the order in which it is gone through. -/
inductive TomlTable where
  | nil
  | value (key : List Char) (value : TomlValue) (rest : TomlTable)
  | table (key : List Char) (entries rest : TomlTable)

/-- What is under a key: a table, or a value of one of the types that the code tells apart. -/
inductive TomlNode where
  | value (value : TomlValue)
  | table (entries : TomlTable)

/-- `config[key]`. -/
def TomlTable.find : TomlTable → List Char → Option TomlNode
  | nil, _ => none
  | value key v rest, k => if k = key then some (.value v) else rest.find k
  | table key entries rest, k => if k = key then some (.table entries) else rest.find k

/-- The keys of a table itself, not of the tables in it. -/
def TomlTable.keys : TomlTable → List (List Char)
  | nil => []
  | value key _ rest => key :: rest.keys
  | table key _ rest => key :: rest.keys

/-! ## Paths -/

/-- `path::filename`. -/
def fileName (path : List Char) : List Char := path.rtakeWhile (· ≠ '/')

/-- `path::extension`.  A dot that the name of the file begins with is none. -/
def extension (path : List Char) : List Char :=
  let name := fileName path
  if name = ['.'] ∨ name = ['.', '.'] then []
  else if (name.rdropWhile (· ≠ '.')).length ≤ 1 then []
  else '.' :: name.rtakeWhile (· ≠ '.')

/-- `path::replace_extension`, by nothing or by one that begins with a dot. -/
def replaceExtension (path replacement : List Char) : List Char :=
  path.take (path.length - (extension path).length) ++ replacement

/-- `path::stem`. -/
def stem (path : List Char) : List Char := replaceExtension (fileName path) []

/-- The extension of profiles and manifests, `.toml`. -/
def tomlExtension : List Char := ['.', 't', 'o', 'm', 'l']

/-- `path::is_absolute`. -/
def isAbsolute (path : List Char) : Bool := path.head? = some '/'

/-- `operator/` of two paths: an absolute one replaces the other, and a slash is put between them if
there is none. -/
def joinPath (directory path : List Char) : List Char :=
  if isAbsolute path ∨ directory = [] then path
  else if directory.getLast? = some '/' then directory ++ path
  else directory ++ '/' :: path

/-- `InternalAdbcParsePath`. -/
def parsePath (paths : List Char) : List (List Char) := (paths.splitOn ':').filter (· ≠ [])

/-! ## Search paths -/

/-- `SearchPathType`. -/
inductive SearchPathType where
  | manifest
  | profile

/-- `SearchPathSource`, without the registry of Windows and the prefix of Conda. -/
inductive SearchPathSource where
  | env
  | user
  | system
  | additional
  | unset
  | doesNotExist
  | disabledAtCompileTime
  | disabledAtRunTime
  | otherError
  deriving DecidableEq

namespace SearchPathSource

/-- What is in front of a path in a message. -/
def text (type : SearchPathType) : SearchPathSource → String
  | env =>
    match type with
    | .manifest => "ADBC_DRIVER_PATH: "
    | .profile => "ADBC_PROFILE_PATH: "
  | user => "user config dir: "
  | system => "system config dir: "
  | additional => "additional search path: "
  | unset => "not set: "
  | doesNotExist => "does not exist: "
  | disabledAtCompileTime => "not enabled at build time: "
  | disabledAtRunTime => "not enabled at run time: "
  | otherError => ""

/-- What is there only to be named in a message. -/
def isNote : SearchPathSource → Bool
  | env | user | system | additional => false
  | _ => true

end SearchPathSource

/-- `SearchPaths`. -/
abbrev SearchPaths := List (SearchPathSource × List Char)

/-- `AddSearchPathsToError`. -/
def addSearchPathsToError (searchPaths : SearchPaths) (type : SearchPathType) (message : String) :
    String :=
  if searchPaths = [] then message
  else searchPaths.foldl (fun message path =>
      message ++ "\n\t" ++ path.1.text type ++ String.ofList path.2)
    (message ++ "\nAlso searched these paths for" ++
      match type with
      | .manifest => " manifests:"
      | .profile => " profiles:")

/-- The computer: its environment, its files, what they are parsed as, and the order in which
the entries of a hash table are gone through.  `isThere` is `std::filesystem::exists`, which throws
if the system cannot tell: a directory that may not be read, or a name that is too long. -/
structure Machine where
  getenv : List Char → Option (List Char)
  isThere : List Char → Except String Bool
  parseFile : List Char → Except String TomlTable
  order : ∀ {β : Type}, List (Sigma fun _ : List Char => β) → List (Sigma fun _ : List Char => β)
  order_perm : ∀ {β : Type} (entries : List (Sigma fun _ : List Char => β)),
    (order entries).Perm entries

/-- `InternalAdbcUserConfigDir`. -/
def userConfigDir (getenv : List Char → Option (List Char)) : List Char :=
  let configDir := match getenv "XDG_CONFIG_HOME".toList with
    | some dir => dir
    | none =>
      match getenv "HOME".toList with
      | some dir => joinPath dir ".config".toList
      | none => []
  if configDir = [] then [] else joinPath configDir "adbc".toList

/-- `GetEnvPaths`. -/
def getEnvPaths (getenv : List Char → Option (List Char)) (envVar : List Char) : SearchPaths :=
  match getenv envVar with
  | none => []
  | some paths => (parsePath paths).map (.env, ·)

/-- The directories of a search path, without the notes that are kept beside them for messages. -/
def directoriesOf (searchPaths : SearchPaths) : List (List Char) :=
  searchPaths.filterMap fun x => if x.1.isNote then none else some x.2

theorem directoriesOf_cons (source : SearchPathSource) (directory : List Char)
    (rest : SearchPaths) : directoriesOf ((source, directory) :: rest) =
      if source.isNote then directoriesOf rest else directory :: directoriesOf rest := by
  rw [directoriesOf, List.filterMap_cons]
  by_cases h : source.isNote = true
  · rw [if_pos h, if_pos h]
    rfl
  · rw [if_neg h, if_neg h]
    rfl

theorem directoriesOf_append (searchPaths searchPaths' : SearchPaths) :
    directoriesOf (searchPaths ++ searchPaths') =
      directoriesOf searchPaths ++ directoriesOf searchPaths' :=
  List.filterMap_append

theorem directoriesOf_map {source : SearchPathSource} (h : source.isNote = false)
    (directories : List (List Char)) :
    directoriesOf (directories.map (source, ·)) = directories := by
  induction directories with
  | nil => rfl
  | cons directory directories ih =>
    rw [List.map_cons, directoriesOf_cons, h]
    exact congrArg (directory :: ·) ih

theorem directoriesOf_getEnvPaths (getenv : List Char → Option (List Char))
    (envVar : List Char) :
    directoriesOf (getEnvPaths getenv envVar) = (getenv envVar).elim [] parsePath := by
  rw [getEnvPaths]
  cases getenv envVar with
  | none => rfl
  | some paths => exact directoriesOf_map rfl _

/-! ## Names in paths -/

/-- What is in front of the name of a file. -/
def Front (front : List Char) : Prop := front = [] ∨ front.getLast? = some '/'

theorem fileName_front {front name : List Char} (hfront : Front front) (h : '/' ∉ name) :
    fileName (front ++ name) = name := by
  have hname : ∀ x ∈ name.reverse, decide (x ≠ '/') = true := by
    intro x hx
    have hne : x ≠ '/' := fun he => h (he ▸ List.mem_reverse.mp hx)
    simpa using hne
  have hrest : front.reverse.takeWhile (fun x => decide (x ≠ '/')) = [] := by
    rcases hfront with rfl | hlast
    · rfl
    · rw [← List.head?_reverse] at hlast
      obtain ⟨rest, hrest⟩ := List.head?_eq_some_iff.mp hlast
      rw [hrest]
      rfl
  rw [fileName, List.rtakeWhile, List.reverse_append, List.takeWhile_append_of_pos hname, hrest,
    List.append_nil, List.reverse_reverse]

theorem extension_plain {front name : List Char} (hfront : Front front) (hslash : '/' ∉ name)
    (hdot : '.' ∉ name) : extension (front ++ name) = [] := by
  have hdrop : name.rdropWhile (fun x => decide (x ≠ '.')) = [] := by
    refine List.rdropWhile_eq_nil_iff.mpr fun x hx => ?_
    have hne : x ≠ '.' := fun he => hdot (he ▸ hx)
    simpa using hne
  rw [extension, fileName_front hfront hslash, hdrop]
  simp

/-- The name of a file is its stem and its extension. -/
theorem stem_append_extension (path : List Char) :
    fileName path = stem path ++ extension path := by
  have hidem : fileName (fileName path) = fileName path := List.rtakeWhile_idempotent _ path
  have hsame : extension (fileName path) = extension path := by
    rw [extension, extension, hidem]
  have hsuffix : extension path <:+ fileName path := by
    rw [extension]
    split
    · exact List.nil_suffix
    · split
      · exact List.nil_suffix
      · rename_i hlong
        generalize fileName path = name at hlong ⊢
        have hne : name.rdropWhile (fun c => decide (c ≠ '.')) ≠ [] := by
          intro h
          rw [h] at hlong
          exact hlong (Nat.zero_le 1)
        have hlast := List.rdropWhile_last_not (fun c => decide (c ≠ '.')) name hne
        have hdot : (name.rdropWhile fun c => decide (c ≠ '.')).getLast hne = '.' := by
          simpa using hlast
        have hback := List.dropLast_append_getLast hne
        rw [hdot] at hback
        refine ⟨(name.rdropWhile fun c => decide (c ≠ '.')).dropLast, ?_⟩
        rw [List.append_cons, hback, List.rdropWhile_append_rtakeWhile]
  obtain ⟨front, hfront⟩ := hsuffix
  rw [stem, replaceExtension, hsame, ← hfront, List.length_append, Nat.add_sub_cancel,
    List.take_left, List.append_nil]

theorem stem_starts (path : List Char) : stem path <+: fileName path :=
  ⟨extension path, (stem_append_extension path).symm⟩

theorem extension_head (path : List Char) :
    extension path = [] ∨ (extension path).head? = some '.' := by
  rw [extension]
  split
  · exact .inl rfl
  · split
    · exact .inl rfl
    · exact .inr rfl

theorem fileName_append (path : List Char) {last : List Char} (h : '/' ∉ last) :
    fileName (path ++ last) = fileName path ++ last := by
  have hlast : ∀ x ∈ last.reverse, decide (x ≠ '/') = true := by
    intro x hx
    have hne : x ≠ '/' := fun he => h (he ▸ List.mem_reverse.mp hx)
    simpa using hne
  rw [fileName, fileName, List.rtakeWhile, List.rtakeWhile, List.reverse_append,
    List.takeWhile_append_of_pos hlast, List.reverse_append, List.reverse_reverse]

/-- What is in front of a path is in front of the name of the file, or of a directory. -/
theorem fileName_front_cases {front : List Char} (h : '/' ∉ front) (path : List Char) :
    fileName (front ++ path) = fileName path ∨
      fileName (front ++ path) = front ++ fileName path := by
  have hfront : front.reverse.takeWhile (fun x => decide (x ≠ '/')) = front.reverse := by
    refine List.takeWhile_eq_self_iff.mpr fun x hx => ?_
    have hne : x ≠ '/' := fun he => h (he ▸ List.mem_reverse.mp hx)
    simpa using hne
  rw [fileName, fileName, List.rtakeWhile, List.rtakeWhile, List.reverse_append,
    List.takeWhile_append]
  split
  · rename_i hall
    have hpath := List.takeWhile_prefix (fun x => decide (x ≠ '/')) (l := path.reverse)
    rw [hfront, hpath.eq_of_length hall, List.reverse_append, List.reverse_reverse]
    exact .inr rfl
  · exact .inl rfl

end DriverManager
end AdbcClient
