import AdbcClient.DriverOptions
import AdbcClient.FileSearch

/-!
# Profile files

A profile is a TOML file with the name of a driver and a table of options, which may have tables
of its own: the key of an option is made of the keys on the way to it, with dots in between
(`adbc_driver_manager_profiles.cpp`).

`leaves` is what a table says, in the order in which it is gone through, and `paths` where its
values are.  `loadProfileFile_ok` and `profile_round_trip` say what becomes of them, for every
table and for one whose keys have no dots.
-/
namespace AdbcClient
namespace DriverManager

/-- `FilesystemProfile`. -/
structure FilesystemProfile where
  driver : List Char
  options : AList fun _ : List Char => List Char
  intOptions : AList fun _ : List Char => Int
  doubleOptions : AList fun _ : List Char => Double

namespace FilesystemProfile

/-- A new profile, without a driver and without options. -/
def new : FilesystemProfile := ⟨[], ∅, ∅, ∅⟩

/-- The texts that stand for `true` and `false` in options. -/
def booleanText (value : Bool) : List Char := if value then "true".toList else "false".toList

/-- What `VisitTable` does with a value under a key: it becomes an option of its type. -/
def set (profile : FilesystemProfile) (key : List Char) : TomlValue → FilesystemProfile
  | .string text => { profile with options := profile.options.insert key text }
  | .integer value => { profile with intOptions := profile.intOptions.insert key value }
  | .floatingPoint value => { profile with doubleOptions := profile.doubleOptions.insert key value }
  | .boolean value => { profile with options := profile.options.insert key (booleanText value) }
  | .other => profile

end FilesystemProfile

/-- The error for a value of another type. -/
def unsupportedValue (profilePath key : List Char) : String :=
  "Unsupported value type for key '" ++ String.ofList key ++ "' in profile '" ++
    String.ofList profilePath ++ "'"

/-- `VisitTable`.  A key ends where its C string does. -/
def visitTable (profilePath : List Char) :
    List Char → TomlTable → FilesystemProfile → Except String FilesystemProfile
  | _, .nil, profile => .ok profile
  | _, .value key .other _, _ => .error (unsupportedValue profilePath key)
  | front, .value key value rest, profile =>
    visitTable profilePath front rest (profile.set (front ++ cString key) value)
  | front, .table key entries rest, profile =>
    match visitTable profilePath (front ++ cString key ++ ['.']) entries profile with
    | .error message => .error message
    | .ok profile => visitTable profilePath front rest profile

/-- The driver of a profile, which is empty if the file does not name one as a text. -/
def profileDriver (config : TomlTable) : List Char :=
  match config.find "driver".toList with
  | some (.value (.string driver)) => driver
  | _ => []

/-- `LoadProfileFile`, with what the file is parsed as. -/
def loadProfileFile (profilePath : List Char) :
    Except String TomlTable → Except String FilesystemProfile
  | .error what => .error ("Could not open profile. " ++ what ++ ". Profile: " ++
      String.ofList profilePath)
  | .ok config =>
    match config.find "profile_version".toList with
    | some (.value (.integer version)) =>
      if version = 1 then
        match config.find "Options".toList with
        | some (.table options) =>
          visitTable profilePath [] options
            { FilesystemProfile.new with driver := profileDriver config }
        | _ => .error ("Profile options is not a table in profile '" ++
            String.ofList profilePath ++ "'")
      else .error ("Profile version '" ++ toString version ++
        "' is not supported by this driver manager. Profile: " ++ String.ofList profilePath)
    | _ => .error ("Profile version is not an integer in profile '" ++
        String.ofList profilePath ++ "'")

/-! ## What a table says -/

/-- The values of a table with the keys of their options. -/
def leaves : List Char → TomlTable → List (List Char × TomlValue)
  | _, .nil => []
  | front, .value key value rest => (front ++ cString key, value) :: leaves front rest
  | front, .table key entries rest =>
    leaves (front ++ cString key ++ ['.']) entries ++ leaves front rest

/-- The text of an option that is given by the value, if it gives one. -/
def TomlValue.text : TomlValue → Option (List Char)
  | string text => some text
  | boolean value => some (FilesystemProfile.booleanText value)
  | _ => none

/-- The value of an integer option, if it is one. -/
def TomlValue.int : TomlValue → Option Int
  | integer value => some value
  | _ => none

/-- The value of a floating-point option, if it is one. -/
def TomlValue.double : TomlValue → Option Double
  | floatingPoint value => some value
  | _ => none

/-- The last value of some kind under a key. -/
def lastUnder {β : Type} (kind : TomlValue → Option β) (key : List Char)
    (values : List (List Char × TomlValue)) : Option β :=
  (values.filterMap fun x => if x.1 = key then kind x.2 else none).getLast?

/-- **A profile has what its table says**: the last value under each key. -/
structure Has (profile : FilesystemProfile) (values : List (List Char × TomlValue)) : Prop where
  options : ∀ key, profile.options.lookup key = lastUnder TomlValue.text key values
  intOptions : ∀ key, profile.intOptions.lookup key = lastUnder TomlValue.int key values
  doubleOptions : ∀ key, profile.doubleOptions.lookup key = lastUnder TomlValue.double key values

theorem lastUnder_append {β : Type} (kind : TomlValue → Option β) (key key' : List Char)
    (value : TomlValue) (values : List (List Char × TomlValue)) :
    lastUnder kind key (values ++ [(key', value)]) =
      (if key' = key then kind value else none).or (lastUnder kind key values) := by
  rw [lastUnder, List.filterMap_append, List.getLast?_append]
  congr 1
  by_cases hk : key' = key
  · cases hv : kind value <;> simp [hk, hv]
  · simp [hk]

theorem has_new (driver : List Char) :
    Has { FilesystemProfile.new with driver := driver } [] :=
  ⟨fun _ => rfl, fun _ => rfl, fun _ => rfl⟩

/-- **One value** is added to the options that a profile has. -/
theorem Has.set {profile : FilesystemProfile} {values : List (List Char × TomlValue)}
    (h : Has profile values) (key : List Char) (value : TomlValue) :
    Has (profile.set key value) (values ++ [(key, value)]) := by
  have hother : ∀ {β : Type} {kind : TomlValue → Option β}, kind value = none → ∀ k,
      lastUnder kind k values = lastUnder kind k (values ++ [(key, value)]) := by
    intro β kind hnone k
    rw [lastUnder_append, hnone, ite_self, Option.none_or]
  have hinsert : ∀ {β : Type} {kind : TomlValue → Option β} {m : AList fun _ : List Char => β}
      {v : β}, kind value = some v → (∀ k, m.lookup k = lastUnder kind k values) → ∀ k,
      (m.insert key v).lookup k = lastUnder kind k (values ++ [(key, value)]) := by
    intro β kind m v hsome hm k
    rw [lastUnder_append, hsome]
    by_cases hk : k = key
    · subst hk
      rw [AList.lookup_insert, if_pos rfl]
      rfl
    · rw [AList.lookup_insert_ne hk, if_neg (Ne.symm hk), Option.none_or, hm]
  cases value with
  | string text =>
    exact ⟨hinsert rfl h.options, fun k => (h.intOptions k).trans (hother rfl k),
      fun k => (h.doubleOptions k).trans (hother rfl k)⟩
  | integer value =>
    exact ⟨fun k => (h.options k).trans (hother rfl k), hinsert rfl h.intOptions,
      fun k => (h.doubleOptions k).trans (hother rfl k)⟩
  | floatingPoint value =>
    exact ⟨fun k => (h.options k).trans (hother rfl k),
      fun k => (h.intOptions k).trans (hother rfl k), hinsert rfl h.doubleOptions⟩
  | boolean value =>
    exact ⟨hinsert rfl h.options, fun k => (h.intOptions k).trans (hother rfl k),
      fun k => (h.doubleOptions k).trans (hother rfl k)⟩
  | other =>
    exact ⟨fun k => (h.options k).trans (hother rfl k),
      fun k => (h.intOptions k).trans (hother rfl k),
      fun k => (h.doubleOptions k).trans (hother rfl k)⟩

theorem set_driver (profile : FilesystemProfile) (key : List Char) (value : TomlValue) :
    (profile.set key value).driver = profile.driver := by
  cases value <;> rfl

/-- A value that is passed over is none of another type. -/
theorem visitTable_value (profilePath front key : List Char) {value : TomlValue} (rest : TomlTable)
    (profile : FilesystemProfile) (h : value ≠ .other) :
    visitTable profilePath front (.value key value rest) profile =
      visitTable profilePath front rest (profile.set (front ++ cString key) value) := by
  cases value with
  | other => exact absurd rfl h
  | _ => rfl

/-- **The whole table.**  It is gone through if it has no value of another type. -/
theorem visitTable_spec (profilePath front : List Char) (table : TomlTable)
    {profile : FilesystemProfile} {values : List (List Char × TomlValue)} (h : Has profile values) :
    (∃ profile', visitTable profilePath front table profile = .ok profile' ∧
      Has profile' (values ++ leaves front table) ∧ profile'.driver = profile.driver ∧
      ∀ x ∈ leaves front table, x.2 ≠ .other) ∨
    (∃ key, visitTable profilePath front table profile =
      .error (unsupportedValue profilePath key)) ∧ ∃ x ∈ leaves front table, x.2 = .other := by
  induction table generalizing front profile values with
  | nil => exact .inl ⟨profile, rfl, by rwa [leaves, List.append_nil], rfl, by simp [leaves]⟩
  | value key value rest ih =>
    by_cases hother : value = .other
    · subst hother
      exact .inr ⟨⟨key, rfl⟩, _, List.mem_cons_self, rfl⟩
    · rw [visitTable_value _ _ _ _ _ hother, leaves]
      rcases ih front (h.set (front ++ cString key) value) with
        ⟨profile', hok, hhas, hdriver, hall⟩ | ⟨hfailed, x, hx, hunsupported⟩
      · rw [List.append_assoc] at hhas
        refine .inl ⟨profile', hok, hhas, hdriver.trans (set_driver ..), fun x hx => ?_⟩
        rcases List.mem_cons.mp hx with rfl | hx
        · exact hother
        · exact hall x hx
      · exact .inr ⟨hfailed, x, List.mem_cons_of_mem _ hx, hunsupported⟩
  | table key entries rest ihEntries ihRest =>
    rw [visitTable, leaves]
    rcases ihEntries (front ++ cString key ++ ['.']) h with
      ⟨profile₁, hok, hhas, hdriver, hall⟩ | ⟨⟨failedKey, hfailed⟩, x, hx, hunsupported⟩
    · rw [hok]
      rcases ihRest front hhas with
        ⟨profile', hok', hhas', hdriver', hall'⟩ | ⟨hfailed, x, hx, hunsupported⟩
      · rw [List.append_assoc] at hhas'
        refine .inl ⟨profile', hok', hhas', hdriver'.trans hdriver, fun x hx => ?_⟩
        rcases List.mem_append.mp hx with hx | hx
        · exact hall x hx
        · exact hall' x hx
      · exact .inr ⟨hfailed, x, List.mem_append_right _ hx, hunsupported⟩
    · rw [hfailed]
      exact .inr ⟨⟨failedKey, rfl⟩, x, List.mem_append_left _ hx, hunsupported⟩

/-- What a file must be to be loaded: its version is the integer 1, and its options are a table
whose values have known types. -/
structure IsProfile (config : TomlTable) (options : TomlTable) : Prop where
  version : config.find "profile_version".toList = some (.value (.integer 1))
  found : config.find "Options".toList = some (.table options)
  supported : ∀ x ∈ leaves [] options, x.2 ≠ .other

/-- **The files that are loaded**, and what the profile has then. -/
theorem loadProfileFile_ok {profilePath : List Char} {parsed : Except String TomlTable}
    {profile : FilesystemProfile} (h : loadProfileFile profilePath parsed = .ok profile) :
    ∃ config options, parsed = .ok config ∧ IsProfile config options ∧
      profile.driver = profileDriver config ∧ Has profile (leaves [] options) := by
  cases parsed with
  | error what => cases h
  | ok config =>
    rw [loadProfileFile] at h
    split at h
    · rename_i version hversion
      split at h
      · rename_i hone
        subst hone
        split at h
        · rename_i options hoptions
          rcases visitTable_spec profilePath [] options (has_new (profileDriver config)) with
            ⟨profile', hok, hhas, hdriver, hall⟩ | ⟨⟨key, hfailed⟩, -⟩
          · obtain rfl := Except.ok.inj (h.symm.trans hok)
            exact ⟨config, options, rfl, ⟨hversion, hoptions, hall⟩, hdriver, hhas⟩
          · rw [hfailed] at h
            cases h
        · cases h
      · cases h
    · cases h

theorem loadProfileFile_isOk_iff (profilePath : List Char) (config : TomlTable) :
    (∃ profile, loadProfileFile profilePath (.ok config) = .ok profile) ↔
      ∃ options, IsProfile config options := by
  constructor
  · rintro ⟨profile, h⟩
    obtain ⟨config', options, hconfig, hprofile, -, -⟩ := loadProfileFile_ok h
    obtain rfl := Except.ok.inj hconfig
    exact ⟨options, hprofile⟩
  · rintro ⟨options, hversion, hoptions, hall⟩
    rw [loadProfileFile, hversion, hoptions]
    simp only
    rw [if_pos trivial]
    rcases visitTable_spec profilePath [] options (has_new (profileDriver config)) with
      ⟨profile, hok, -, -, -⟩ | ⟨-, x, hx, hunsupported⟩
    · exact ⟨profile, hok⟩
    · exact absurd hunsupported (hall x hx)

/-! ## Keys without dots -/

/-- The values of a table with the keys on the way to them. -/
def paths : TomlTable → List (List (List Char) × TomlValue)
  | .nil => []
  | .value key value rest => ([key], value) :: paths rest
  | .table key entries rest => ((paths entries).map fun x => (key :: x.1, x.2)) ++ paths rest

/-- The key of an option: the keys on the path to it, joined by dots. -/
def dotted (path : List (List Char)) : List Char := ['.'].intercalate path

/-- A key without dots, and without the end of a C string. -/
def PlainKey (key : List Char) : Prop := '.' ∉ key ∧ '\x00' ∉ key

/-- Every key is plain, and is there once in its table. -/
def Plain : TomlTable → Prop
  | .nil => True
  | .value key _ rest => PlainKey key ∧ key ∉ rest.keys ∧ Plain rest
  | .table key entries rest => PlainKey key ∧ key ∉ rest.keys ∧ Plain entries ∧ Plain rest

section Plain
variable {table : TomlTable} {path : List (List Char)} {value : TomlValue}

/-- A way begins with a key of the table. -/
theorem exists_key (h : (path, value) ∈ paths table) :
    ∃ key rest, path = key :: rest ∧ key ∈ table.keys := by
  induction table with
  | nil => cases h
  | value key value' rest ih =>
    rcases List.mem_cons.mp h with he | h
    · obtain ⟨rfl, -⟩ := Prod.mk.inj he
      exact ⟨key, [], rfl, List.mem_cons_self⟩
    · obtain ⟨k, ks, rfl, hk⟩ := ih h
      exact ⟨k, ks, rfl, List.mem_cons_of_mem _ hk⟩
  | table key entries rest _ ih =>
    rcases List.mem_append.mp h with h | h
    · obtain ⟨x, -, he⟩ := List.mem_map.mp h
      obtain ⟨rfl, -⟩ := Prod.mk.inj he
      exact ⟨key, x.1, rfl, List.mem_cons_self⟩
    · obtain ⟨k, ks, rfl, hk⟩ := ih h
      exact ⟨k, ks, rfl, List.mem_cons_of_mem _ hk⟩

theorem plain_path (hplain : Plain table) (h : (path, value) ∈ paths table) :
    ∀ key ∈ path, PlainKey key := by
  induction table generalizing path with
  | nil => cases h
  | value key value' rest ih =>
    obtain ⟨hkey, -, hrest⟩ := hplain
    rcases List.mem_cons.mp h with he | h
    · obtain ⟨rfl, -⟩ := Prod.mk.inj he
      intro k hk
      obtain rfl := List.mem_singleton.mp hk
      exact hkey
    · exact ih hrest h
  | table key entries rest ihEntries ihRest =>
    obtain ⟨hkey, -, hentries, hrest⟩ := hplain
    rcases List.mem_append.mp h with h | h
    · obtain ⟨x, hx, he⟩ := List.mem_map.mp h
      obtain ⟨rfl, rfl⟩ := Prod.mk.inj he
      intro k hk
      rcases List.mem_cons.mp hk with rfl | hk
      · exact hkey
      · exact ihEntries hentries hx k hk
    · exact ihRest hrest h

/-- There is one value at the end of a way. -/
theorem paths_nodup (hplain : Plain table) : ((paths table).map Prod.fst).Nodup := by
  induction table with
  | nil => exact List.nodup_nil
  | value key value rest ih =>
    obtain ⟨-, hnew, hrest⟩ := hplain
    refine List.nodup_cons.mpr ⟨fun hmem => ?_, ih hrest⟩
    obtain ⟨x, hx, he⟩ := List.mem_map.mp hmem
    obtain ⟨k, ks, hpath, hk⟩ := exists_key hx
    obtain ⟨rfl, -⟩ := List.cons.inj (he.symm.trans hpath)
    exact hnew hk
  | table key entries rest ihEntries ihRest =>
    obtain ⟨-, hnew, hentries, hrest⟩ := hplain
    rw [paths, List.map_append, List.map_map]
    refine List.nodup_append.mpr ⟨?_, ihRest hrest, fun p hp p' hp' he => ?_⟩
    · have hmap : (paths entries).map (Prod.fst ∘ fun x => (key :: x.1, x.2)) =
          ((paths entries).map Prod.fst).map (key :: ·) := by
        rw [List.map_map]
        rfl
      rw [hmap]
      exact (ihEntries hentries).map (List.cons_injective)
    · subst he
      obtain ⟨x, -, rfl⟩ := List.mem_map.mp hp
      obtain ⟨x', hx', he⟩ := List.mem_map.mp hp'
      obtain ⟨k, ks, hpath, hk⟩ := exists_key hx'
      obtain ⟨rfl, -⟩ := List.cons.inj (he.symm.trans hpath)
      exact hnew hk

/-- **Nothing is lost in the key**: it says the way to the value. -/
theorem dotted_injective {path' : List (List Char)} (hpath : ∀ key ∈ path, PlainKey key)
    (hpath' : ∀ key ∈ path', PlainKey key) (hne : path ≠ []) (hne' : path' ≠ [])
    (h : dotted path = dotted path') : path = path' := by
  have hsplit := List.splitOn_intercalate '.' (fun key hkey => (hpath key hkey).1) hne
  have hsplit' := List.splitOn_intercalate '.' (fun key hkey => (hpath' key hkey).1) hne'
  rw [← hsplit, ← hsplit']
  exact congrArg (List.splitOn '.') h

theorem dotted_cons (key : List Char) (hne : path ≠ []) :
    dotted (key :: path) = key ++ ['.'] ++ dotted path := by
  rw [dotted, dotted, List.intercalate_cons_of_ne_nil hne]

/-- **The keys of the options** are the ways to the values. -/
theorem leaves_eq (hplain : Plain table) (front : List Char) :
    leaves front table = (paths table).map fun x => (front ++ dotted x.1, x.2) := by
  induction table generalizing front with
  | nil => rfl
  | value key value rest ih =>
    obtain ⟨hkey, -, hrest⟩ := hplain
    rw [leaves, paths, List.map_cons, ih hrest, cString_eq_self hkey.2, dotted,
      List.intercalate_singleton]
  | table key entries rest ihEntries ihRest =>
    obtain ⟨hkey, -, hentries, hrest⟩ := hplain
    rw [leaves, paths, List.map_append, List.map_map, ihEntries hentries, ihRest hrest,
      cString_eq_self hkey.2]
    congr 1
    refine List.map_congr_left fun x hx => ?_
    obtain ⟨k, ks, hpath, -⟩ := exists_key hx
    show _ = (front ++ dotted (key :: x.1), x.2)
    rw [dotted_cons key (by rw [hpath]; exact List.cons_ne_nil _ _), ← List.append_assoc,
      ← List.append_assoc]

/-- A value that is there once under its key is the last one. -/
theorem filterMap_unique {κ α β : Type} [DecidableEq κ] {values : List (κ × α)}
    (hnodup : (values.map Prod.fst).Nodup) {k : κ} {a : α} (h : (k, a) ∈ values)
    (f : α → Option β) :
    (values.filterMap fun x => if x.1 = k then f x.2 else none) = (f a).toList := by
  induction values with
  | nil => cases h
  | cons x values ih =>
    obtain ⟨hnew, hrest⟩ := List.nodup_cons.mp hnodup
    rcases List.mem_cons.mp h with rfl | h
    · have hnone : (values.filterMap fun x => if x.1 = k then f x.2 else none) = [] := by
        refine List.filterMap_eq_nil_iff.mpr fun y hy => if_neg ?_
        rintro rfl
        exact hnew (List.mem_map.mpr ⟨y, hy, rfl⟩)
      rw [List.filterMap_cons, if_pos rfl, hnone]
      cases f a <;> rfl
    · have hne : x.1 ≠ k := by
        rintro rfl
        exact hnew (List.mem_map.mpr ⟨_, h, rfl⟩)
      rw [List.filterMap_cons, if_neg hne]
      exact ih hrest h

theorem lastUnder_path {β : Type} (kind : TomlValue → Option β) (hplain : Plain table)
    (h : (path, value) ∈ paths table) :
    lastUnder kind (dotted path) (leaves [] table) = kind value := by
  have hsame : ∀ x ∈ paths table, (if dotted x.1 = dotted path then kind x.2 else none) =
      if x.1 = path then kind x.2 else none := by
    intro x hx
    by_cases he : x.1 = path
    · rw [if_pos he, if_pos (by rw [he])]
    · rw [if_neg he, if_neg fun hdotted => he ?_]
      obtain ⟨k, ks, hne, -⟩ := exists_key hx
      obtain ⟨k', ks', hne', -⟩ := exists_key h
      exact dotted_injective (plain_path hplain hx) (plain_path hplain h)
        (by rw [hne]; exact List.cons_ne_nil _ _) (by rw [hne']; exact List.cons_ne_nil _ _) hdotted
  rw [lastUnder, leaves_eq hplain, List.filterMap_map]
  show (List.filterMap (fun x => if dotted x.1 = dotted path then kind x.2 else none)
    (paths table)).getLast? = _
  rw [List.filterMap_congr hsame, filterMap_unique (paths_nodup hplain) h kind]
  cases kind value <;> rfl

theorem lastUnder_none {β : Type} (kind : TomlValue → Option β) (hplain : Plain table)
    {key : List Char} (h : ∀ x ∈ paths table, dotted x.1 ≠ key) :
    lastUnder kind key (leaves [] table) = none := by
  rw [lastUnder, leaves_eq hplain, List.getLast?_eq_none_iff, List.filterMap_eq_nil_iff]
  intro x hx
  obtain ⟨y, hy, rfl⟩ := List.mem_map.mp hx
  exact if_neg (h y hy)

/-- **The options of a profile are the values of its file.**  If no key of the file has a dot,
there is one option for each value, under the keys on the way to it. -/
theorem profile_round_trip {profilePath : List Char} {config : TomlTable}
    {profile : FilesystemProfile} (h : loadProfileFile profilePath (.ok config) = .ok profile) :
    ∃ options, config.find "Options".toList = some (.table options) ∧ (Plain options →
      (∀ path value, (path, value) ∈ paths options →
        profile.options.lookup (dotted path) = value.text ∧
        profile.intOptions.lookup (dotted path) = value.int ∧
        profile.doubleOptions.lookup (dotted path) = value.double) ∧
      ∀ key, key ∈ profile.options ∨ key ∈ profile.intOptions ∨ key ∈ profile.doubleOptions →
        ∃ path value, (path, value) ∈ paths options ∧ dotted path = key) := by
  obtain ⟨config', options, hconfig, hprofile, -, hhas⟩ := loadProfileFile_ok h
  obtain rfl := Except.ok.inj hconfig
  refine ⟨options, hprofile.found, fun hplain => ⟨fun path value hpath => ⟨?_, ?_, ?_⟩, ?_⟩⟩
  · rw [hhas.options, lastUnder_path _ hplain hpath]
  · rw [hhas.intOptions, lastUnder_path _ hplain hpath]
  · rw [hhas.doubleOptions, lastUnder_path _ hplain hpath]
  · intro key hkey
    by_contra hno
    have hall : ∀ x ∈ paths options, dotted x.1 ≠ key := fun x hx he =>
      hno ⟨x.1, x.2, hx, he⟩
    rcases hkey with hkey | hkey | hkey
    · rw [← AList.lookup_isSome, hhas.options, lastUnder_none _ hplain hall] at hkey
      cases hkey
    · rw [← AList.lookup_isSome, hhas.intOptions, lastUnder_none _ hplain hall] at hkey
      cases hkey
    · rw [← AList.lookup_isSome, hhas.doubleOptions, lastUnder_none _ hplain hall] at hkey
      cases hkey

end Plain

/-- Options with a table of their own. -/
def nestedOptions : TomlTable :=
  .value "uri".toList (.string ":memory:".toList)
    (.table "db".toList (.value "port".toList (.integer 5) .nil) .nil)

/-- A profile with options in a table of its own. -/
def nestedProfile : TomlTable :=
  .value "profile_version".toList (.integer 1) (.table "Options".toList nestedOptions .nil)

/-- The number in the table is found under the two keys on the way to it, with a dot between
them. -/
theorem nested_options : ∃ profile, loadProfileFile "a".toList (.ok nestedProfile) = .ok profile ∧
    profile.intOptions.lookup "db.port".toList = some 5 := by
  have h : ∃ profile, loadProfileFile "a".toList (.ok nestedProfile) = .ok profile := ⟨_, rfl⟩
  obtain ⟨profile, hprofile⟩ := h
  obtain ⟨options, hoptions, hall⟩ := profile_round_trip hprofile
  obtain rfl : nestedOptions = options := TomlNode.table.inj (Option.some.inj hoptions)
  have hplain : Plain nestedOptions := by
    refine ⟨⟨by decide, by decide⟩, by decide, ⟨by decide, by decide⟩, by decide,
      ⟨⟨by decide, by decide⟩, by decide, trivial⟩, trivial⟩
  have hpath : (["db".toList, "port".toList], TomlValue.integer 5) ∈ paths nestedOptions :=
    List.mem_cons_of_mem _ List.mem_cons_self
  exact ⟨profile, hprofile, ((hall hplain).1 _ _ hpath).2.1⟩

end DriverManager
end AdbcClient
