import AdbcClient.ProfileValue
import AdbcClient.StatisticsLayout
import Mathlib.Data.List.AList

/-!
# The options of a database

`ATTACH`, `read_adbc` and `adbc_execute` are given one text, which becomes the option `uri` of an
ADBC database.  When the database is initialised, the driver manager finds out from it which
driver to load and what to tell it (`InternalAdbcParseOptions`, `adbc_driver_manager.cpp`): the
text may name the driver in front of a colon, be a location whose scheme is the name of a
driver, be the name of a driver itself, or name a profile that has the driver and more options.

`uri_names_driver` says what every text without a profile stands for, and
`parseOptions_precedence` how the options of a profile and those that were set go together.
-/
namespace AdbcClient
namespace DriverManager

/-- `ParseDriverUriResult`. -/
structure ParseDriverUriResult where
  driver : List Char
  uri : Option (List Char)
  profile : Option (List Char)
  deriving DecidableEq, Repr

/-- `InternalAdbcParseDriverUri`. -/
def parseDriverUri (str : List Char) : Option ParseDriverUriResult :=
  match str.dropWhile (· ≠ ':') with
  | [] => none
  | _ :: rest =>
    let d := str.takeWhile (· ≠ ':')
    match rest with
    | [] => some ⟨d, none, none⟩
    | '/' :: tail =>
      -- the character behind the first slash of a profile is not looked at
      if d = "profile".toList ∧ tail ≠ [] then some ⟨[], none, some (tail.drop 1)⟩
      else some ⟨d, some str, none⟩
    | _ => some ⟨d, some rest, none⟩

/-- `TempDatabase`, without the provider of profiles.  `initFunc` is the address of a
function that is called in place of a driver in a library. -/
structure TempDatabase where
  options : AList fun _ : List Char => List Char
  bytesOptions : AList fun _ : List Char => List Char
  intOptions : AList fun _ : List Char => Int
  doubleOptions : AList fun _ : List Char => Double
  driver : List Char
  entrypoint : List Char
  initFunc : Option Nat
  loadFlags : Nat
  additionalManifestSearchPathList : List Char
  additionalProfileSearchPathList : List Char

/-- `ADBC_LOAD_FLAG_ALLOW_RELATIVE_PATHS`. -/
def loadFlagAllowRelativePaths : Nat := 8

/-- `ADBC_LOAD_FLAG_DEFAULT`: the environment, the user, the system, and relative paths. -/
def loadFlagDefault : Nat := 1 + 2 + 4 + loadFlagAllowRelativePaths

namespace TempDatabase

/-- A new `TempDatabase`, as `AdbcDatabaseNew` makes it: no options, and relative paths allowed. -/
def new : TempDatabase := ⟨∅, ∅, ∅, ∅, [], [], none, loadFlagAllowRelativePaths, [], []⟩

end TempDatabase

/-- What a profile answers when the driver manager asks for its driver and its options. -/
structure ConnectionProfile where
  getDriverName : Except Failure (Option (List Char) × Option Nat)
  getOptions : Except Failure (List (List Char × List Char))
  getIntOptions : Except Failure (List (List Char × Int))
  getDoubleOptions : Except Failure (List (List Char × Double))

/-- What the driver manager asks its surroundings for: a profile by its name and the search
paths, and the environment. -/
structure Surroundings where
  profileProvider : List Char → List Char → Except Failure ConnectionProfile
  getenv : List Char → Option (List Char)

/-- `try_emplace`. -/
def tryEmplace {β : Type} (m : AList fun _ : List Char => β) (key : List Char) (value : β) :
    AList fun _ : List Char => β :=
  if key ∈ m then m else m.insert key value

/-- `try_emplace` for each option of a profile. -/
def emplaceAll {β : Type} (m : AList fun _ : List Char => β) (options : List (List Char × β)) :
    AList fun _ : List Char => β :=
  options.foldl (fun m option => tryEmplace m option.1 option.2) m

/-- `ProcessProfileValue` for each option of a profile. -/
def processOptions (getenv : List Char → Option (List Char)) :
    List (List Char × List Char) → Except Failure (List (List Char × List Char))
  | [] => .ok []
  | (key, value) :: options =>
    match processProfileValue getenv key value with
    | .error failure => .error failure
    | .ok processed => (processOptions getenv options).map ((key, processed) :: ·)

/-- The driver of a profile must be the one that was asked for, if one was. -/
def setDriver (args : TempDatabase) (profile : List Char) (driverName : Option (List Char)) :
    Except Failure TempDatabase :=
  match driverName with
  | none => .ok args
  | some name =>
    if name = [] then .ok args
    else if args.driver ≠ [] ∧ args.driver ≠ name then
      .error (.invalidArgument ("Profile `" ++ String.ofList profile ++
        "` specifies driver `" ++ String.ofList name ++ "` which does not match requested driver `"
        ++ String.ofList args.driver ++ "`"))
    else .ok { args with driver := name }

/-- `InternalInitializeProfile`. -/
def initializeProfile (env : Surroundings) (args : TempDatabase) (profile : List Char) :
    Except Failure TempDatabase := do
  let found ← env.profileProvider profile args.additionalProfileSearchPathList
  let (driverName, initFunc) ← found.getDriverName
  let args ← setDriver args profile driverName
  let args := { args with initFunc := initFunc <|> args.initFunc }
  let options ← found.getOptions
  let processed ← processOptions env.getenv options
  let intOptions ← found.getIntOptions
  let doubleOptions ← found.getDoubleOptions
  return { args with
    options := emplaceAll args.options processed
    intOptions := emplaceAll args.intOptions intOptions
    doubleOptions := emplaceAll args.doubleOptions doubleOptions }

/-- The key `uri`, under which the location is an option like the others. -/
def uriKey : List Char := ['u', 'r', 'i']

/-- The key `profile`, under which a profile is named by an option. -/
def profileKey : List Char := ['p', 'r', 'o', 'f', 'i', 'l', 'e']

/-- The name of the profile, and the database without what named it. -/
def takeProfile (db : TempDatabase) :
    Option (List Char) → Option (List Char) → Option (List Char) → List Char × TempDatabase
  | some name, _, _ => (name, { db with options := db.options.erase profileKey })
  | none, some name, _ => (name, { db with options := db.options.erase uriKey })
  | none, none, some name => (name, { db with driver := [] })
  | none, none, none => ([], db)

/-- The first part of `InternalAdbcParseOptions`: apply the profile, if there is one. -/
def applyProfile (env : Surroundings) (db : TempDatabase) : Except Failure TempDatabase :=
  let parsedDriver := if db.driver = [] then none else parseDriverUri db.driver
  let parsedUri := (db.options.lookup uriKey).bind parseDriverUri
  let driverProfile := parsedDriver.bind ParseDriverUriResult.profile
  let uriProfile := parsedUri.bind ParseDriverUriResult.profile
  let option := db.options.lookup profileKey
  if 1 < option.isSome.toNat + uriProfile.isSome.toNat + driverProfile.isSome.toNat then
    .error (.invalidArgument ("Multiple profiles specified; only one of `profile` option, " ++
      "`profile://` URI, or `profile://` driver is allowed"))
  else
    let (profile, db) := takeProfile db option uriProfile driverProfile
    if profile = [] then .ok db else initializeProfile env db profile

/-- A profile may not name another one. -/
def recursiveProfile : Failure := .invalidArgument "Profile cannot specify a profile:// URI"

/-- The second part: the driver may be written with a location. -/
def splitDriver (db : TempDatabase) : Except Failure TempDatabase :=
  match parseDriverUri db.driver with
  | none => .ok db
  | some parsed =>
    if parsed.profile.isSome then .error recursiveProfile
    else
      match parsed.uri with
      | none => .ok db
      | some uri =>
        .ok { db with driver := parsed.driver, options := db.options.insert uriKey uri }

/-- The third part: without a driver, the location names it. -/
def driverFromUri (db : TempDatabase) : Except Failure TempDatabase :=
  match db.options.lookup uriKey with
  | none => .ok db
  | some location =>
    if db.driver ≠ [] then .ok db
    else
      match parseDriverUri location with
      | none => .ok { db with driver := location }
      | some parsed =>
        if parsed.profile.isSome then .error recursiveProfile
        else
          match parsed.uri with
          | none => .ok db
          | some uri =>
            .ok { db with driver := parsed.driver, options := db.options.insert uriKey uri }

/-- The end: a driver must have been found. -/
def requireDriver (db : TempDatabase) : Except Failure TempDatabase :=
  if db.driver = [] then
    .error (.invalidArgument "Must set 'driver' option before AdbcDatabaseInit")
  else .ok db

/-- `InternalAdbcParseOptions`. -/
def parseOptions (env : Surroundings) (db : TempDatabase) : Except Failure TempDatabase :=
  if db.initFunc.isSome then .ok db
  else do
    let db ← applyProfile env db
    let db ← splitDriver db
    let db ← driverFromUri db
    requireDriver db

/-! ## A text without a profile -/

/-- The options that the constructor of a connection sets (`adbc_util.hpp`). -/
def TempDatabase.ofUri (uri : List Char) : TempDatabase :=
  { TempDatabase.new with
    options := AList.insert uriKey uri ∅
    loadFlags := loadFlagDefault }

/-- **The texts that name a driver**, by how they do so. -/
inductive Location where
  /-- The name of a driver, which is also the location. -/
  | bare (name : List Char)
  /-- A location with the name of the driver as its scheme. -/
  | scheme (name tail : List Char)
  /-- A location behind the name of the driver. -/
  | behind (name : List Char) (first : Char) (tail : List Char) (notSlash : first ≠ '/')

namespace Location

/-- The name of the driver that such a text stands for. -/
def name : Location → List Char
  | bare name => name
  | scheme name _ => name
  | behind name _ _ _ => name

/-- The text itself, with the name of the driver and the location in it. -/
def text : Location → List Char
  | bare name => name
  | scheme name tail => name ++ ':' :: '/' :: tail
  | behind name first tail _ => name ++ ':' :: first :: tail

/-- What the driver is told: the location in the text. -/
def location : Location → List Char
  | bare name => name
  | scheme name tail => name ++ ':' :: '/' :: tail
  | behind _ first tail _ => first :: tail

/-- What `InternalAdbcParseDriverUri` makes of the text, in which nothing is parsed of a mere
name. -/
def parsed : Location → Option ParseDriverUriResult
  | bare _ => none
  | scheme name tail => some ⟨name, some (name ++ ':' :: '/' :: tail), none⟩
  | behind name first tail _ => some ⟨name, some (first :: tail), none⟩

/-- It names a driver: the name is not empty and has no colon in it. -/
structure WellFormed (l : Location) : Prop where
  name_ne : l.name ≠ []
  colon_not_mem : ':' ∉ l.name

end Location

/-- The text names a profile: its scheme is `profile`, and something follows the slash. -/
def NamesProfile (uri : List Char) : Prop :=
  ∃ x name, uri = "profile".toList ++ ':' :: '/' :: x :: name

/-- A text is cut at its first colon. -/
theorem takeWhile_colon {d : List Char} (rest : List Char) (h : ':' ∉ d) :
    (d ++ ':' :: rest).takeWhile (· ≠ ':') = d ∧
      (d ++ ':' :: rest).dropWhile (· ≠ ':') = ':' :: rest := by
  have hd : ∀ x ∈ d, decide (x ≠ ':') = true := by
    intro x hx
    have hne : x ≠ ':' := fun he => h (he ▸ hx)
    simpa using hne
  constructor
  · rw [List.takeWhile_append_of_pos hd, List.takeWhile_cons_of_neg (by simp), List.append_nil]
  · rw [List.dropWhile_append_of_pos hd, List.dropWhile_cons_of_neg (by simp)]

/-- A text has no colon, or a first one. -/
theorem colon_cases (str : List Char) :
    ':' ∉ str ∨ ∃ d rest, str = d ++ ':' :: rest ∧ ':' ∉ d := by
  by_cases h : ':' ∈ str
  · obtain ⟨d, rest, hstr, hd⟩ := List.eq_append_cons_of_mem h
    exact .inr ⟨d, rest, hstr, hd⟩
  · exact .inl h

theorem namesProfile_iff {d tail : List Char} (hd : ':' ∉ d) :
    NamesProfile (d ++ ':' :: '/' :: tail) ↔ d = "profile".toList ∧ tail ≠ [] := by
  constructor
  · rintro ⟨x, name, h⟩
    have hd' : ':' ∉ "profile".toList := by decide
    have htake := (takeWhile_colon ('/' :: tail) hd).1
    have hdrop := (takeWhile_colon ('/' :: tail) hd).2
    rw [h, (takeWhile_colon _ hd').1] at htake
    rw [h, (takeWhile_colon _ hd').2] at hdrop
    refine ⟨htake.symm, fun htail => ?_⟩
    rw [htail] at hdrop
    cases hdrop
  · rintro ⟨rfl, htail⟩
    obtain ⟨x, name, rfl⟩ := List.exists_cons_of_ne_nil htail
    exact ⟨x, name, rfl⟩

theorem parseDriverUri_bare {str : List Char} (h : ':' ∉ str) : parseDriverUri str = none := by
  have hdrop : str.dropWhile (· ≠ ':') = [] := by
    refine List.dropWhile_eq_nil_iff.mpr fun x hx => ?_
    have hne : x ≠ ':' := fun he => h (he ▸ hx)
    simpa using hne
  rw [parseDriverUri, hdrop]

theorem parseDriverUri_end {d : List Char} (hd : ':' ∉ d) :
    parseDriverUri (d ++ [':']) = some ⟨d, none, none⟩ := by
  obtain ⟨htake, hdrop⟩ := takeWhile_colon [] hd
  rw [parseDriverUri, hdrop, htake]

theorem parseDriverUri_scheme {d tail : List Char} (hd : ':' ∉ d)
    (h : ¬ NamesProfile (d ++ ':' :: '/' :: tail)) :
    parseDriverUri (d ++ ':' :: '/' :: tail) =
      some ⟨d, some (d ++ ':' :: '/' :: tail), none⟩ := by
  obtain ⟨htake, hdrop⟩ := takeWhile_colon ('/' :: tail) hd
  rw [parseDriverUri, hdrop, htake]
  exact if_neg (mt (namesProfile_iff hd).mpr h)

theorem parseDriverUri_behind {d : List Char} {first : Char} (tail : List Char) (hd : ':' ∉ d)
    (h : first ≠ '/') :
    parseDriverUri (d ++ ':' :: first :: tail) = some ⟨d, some (first :: tail), none⟩ := by
  obtain ⟨htake, hdrop⟩ := takeWhile_colon (first :: tail) hd
  rw [parseDriverUri, hdrop, htake]
  simp only
  split
  · rename_i he
    cases he
  · rename_i tail' he
    exact absurd (List.cons.inj he).1 h
  · rfl

theorem parseDriverUri_profile (x : Char) (name : List Char) :
    parseDriverUri ("profile".toList ++ ':' :: '/' :: x :: name) = some ⟨[], none, some name⟩ := by
  obtain ⟨htake, hdrop⟩ := takeWhile_colon (d := "profile".toList) ('/' :: x :: name) (by decide)
  rw [parseDriverUri, hdrop, htake]
  exact if_pos ⟨rfl, by simp⟩

theorem parseDriverUri_text {l : Location} (hname : ':' ∉ l.name) (h : ¬ NamesProfile l.text) :
    parseDriverUri l.text = l.parsed := by
  cases l with
  | bare name => exact parseDriverUri_bare hname
  | scheme name tail => exact parseDriverUri_scheme hname h
  | behind name first tail hslash => exact parseDriverUri_behind tail hname hslash

/-- **A text that names no profile** is a location, or ends with its only colon; in either case
the driver of the location may be missing. -/
theorem text_cases {uri : List Char} (h : ¬ NamesProfile uri) :
    (∃ d, uri = d ++ [':'] ∧ ':' ∉ d) ∨ ∃ l : Location, uri = l.text ∧ ':' ∉ l.name := by
  rcases colon_cases uri with hno | ⟨d, rest, rfl, hd⟩
  · exact .inr ⟨.bare uri, rfl, hno⟩
  · cases rest with
    | nil => exact .inl ⟨d, rfl, hd⟩
    | cons first tail =>
      by_cases hslash : first = '/'
      · subst hslash
        exact .inr ⟨.scheme d tail, rfl, hd⟩
      · exact .inr ⟨.behind d first tail hslash, rfl, hd⟩

/-- Without a profile only the location is looked at. -/
theorem parseOptions_ofUri (env : Surroundings) {uri : List Char} (h : ¬ NamesProfile uri) :
    parseOptions env (.ofUri uri) = (driverFromUri (.ofUri uri) >>= requireDriver) := by
  have huri : (TempDatabase.ofUri uri).options.lookup uriKey = some uri := AList.lookup_insert _
  have hoption : (TempDatabase.ofUri uri).options.lookup profileKey = none := by
    rw [TempDatabase.ofUri, AList.lookup_insert_ne (by decide)]
    rfl
  have hprofile : (parseDriverUri uri).bind ParseDriverUriResult.profile = none := by
    rcases text_cases h with ⟨d, rfl, hd⟩ | ⟨l, rfl, hname⟩
    · rw [parseDriverUri_end hd]
      rfl
    · rw [parseDriverUri_text hname h]
      cases l <;> rfl
  have happly : applyProfile env (.ofUri uri) = .ok (.ofUri uri) := by
    rw [applyProfile, huri, hoption, Option.bind_some, hprofile]
    rfl
  rw [parseOptions, happly]
  rfl

/-- A database with the driver and the location that a text stands for. -/
def TempDatabase.named (uri : List Char) (l : Location) : TempDatabase :=
  { TempDatabase.ofUri uri with
    driver := l.name
    options := AList.insert uriKey l.location ∅ }

/-- The location of a text without a driver is kept, and a missing one is not made up. -/
theorem driverFromUri_text {l : Location} (hname : ':' ∉ l.name) (h : ¬ NamesProfile l.text) :
    driverFromUri (.ofUri l.text) = .ok (.named l.text l) := by
  have huri : (TempDatabase.ofUri l.text).options.lookup uriKey = some l.text :=
    AList.lookup_insert _
  rw [driverFromUri, huri]
  simp only
  rw [if_neg (by simp [TempDatabase.ofUri, TempDatabase.new])]
  rw [parseDriverUri_text hname h]
  cases l with
  | bare name => rfl
  | scheme name tail =>
    simp only [Location.parsed, TempDatabase.named, TempDatabase.ofUri, AList.insert_insert]
    rfl
  | behind name first tail hslash =>
    simp only [Location.parsed, TempDatabase.named, TempDatabase.ofUri, AList.insert_insert]
    rfl

theorem parseOptions_text (env : Surroundings) {l : Location} (hl : l.WellFormed)
    (h : ¬ NamesProfile l.text) : parseOptions env (.ofUri l.text) = .ok (.named l.text l) := by
  rw [parseOptions_ofUri env h, driverFromUri_text hl.colon_not_mem h]
  exact if_neg hl.name_ne

/-- **What a text stands for**: the driver that it names, and the location for it; a text that
names none is refused. -/
theorem uri_names_driver (env : Surroundings) {uri : List Char} (h : ¬ NamesProfile uri)
    (db : TempDatabase) :
    parseOptions env (.ofUri uri) = .ok db ↔
      ∃ l : Location, l.WellFormed ∧ uri = l.text ∧ db = .named uri l := by
  constructor
  · intro hok
    rw [parseOptions_ofUri env h] at hok
    rcases text_cases h with ⟨d, rfl, hd⟩ | ⟨l, rfl, hname⟩
    · have huri : (TempDatabase.ofUri (d ++ [':'])).options.lookup uriKey = some (d ++ [':']) :=
        AList.lookup_insert _
      rw [driverFromUri, huri] at hok
      simp only [parseDriverUri_end hd] at hok
      cases hok
    · rw [driverFromUri_text hname h] at hok
      have hrequired : requireDriver (.named l.text l) = .ok db := hok
      rw [requireDriver] at hrequired
      split at hrequired
      · cases hrequired
      · rename_i hdriver
        exact ⟨l, ⟨hdriver, hname⟩, rfl, (Except.ok.inj hrequired).symm⟩
  · rintro ⟨l, hl, rfl, rfl⟩
    exact parseOptions_text env hl h

/-- `sqlite::memory:` names the driver `sqlite`, with the location `:memory:`. -/
theorem sqlite_names_driver :
    parseOptions ⟨fun _ _ => .error recursiveProfile, fun _ => none⟩ (.ofUri "sqlite::memory:".toList) =
      .ok (.named "sqlite::memory:".toList
        (.behind "sqlite".toList ':' "memory:".toList (by decide))) := by
  have hno : ¬ NamesProfile "sqlite::memory:".toList := by
    rintro ⟨x, name, h⟩
    cases h
  exact (uri_names_driver _ hno _).mpr
    ⟨.behind "sqlite".toList ':' "memory:".toList (by decide), ⟨by decide, by decide⟩, rfl, rfl⟩

/-! ## A driver and a location -/

theorem splitDriver_cases {db db' : TempDatabase} (h : splitDriver db = .ok db') :
    ¬ NamesProfile db.driver ∧
      ((db' = db ∧ (':' ∉ db.driver ∨ ∃ name, db.driver = name ++ [':'] ∧ ':' ∉ name)) ∨
        ∃ l : Location, ':' ∉ l.name ∧ ':' ∈ l.text ∧ db.driver = l.text ∧
          db' = { db with
            driver := l.name
            options := db.options.insert uriKey l.location }) := by
  rw [splitDriver] at h
  by_cases hprofile : NamesProfile db.driver
  · obtain ⟨x, name, hdriver⟩ := hprofile
    rw [hdriver, parseDriverUri_profile] at h
    cases h
  refine ⟨hprofile, ?_⟩
  rcases text_cases hprofile with ⟨name, hdriver, hcolon⟩ | ⟨l, hdriver, hcolon⟩
  · rw [hdriver, parseDriverUri_end hcolon] at h
    obtain rfl := Except.ok.inj h
    exact .inl ⟨rfl, .inr ⟨name, hdriver, hcolon⟩⟩
  · rw [hdriver] at hprofile
    rw [hdriver, parseDriverUri_text hcolon hprofile] at h
    cases l with
    | bare name =>
      obtain rfl := Except.ok.inj h
      refine .inl ⟨rfl, .inl ?_⟩
      rw [hdriver]
      exact hcolon
    | scheme name tail =>
      exact .inr ⟨.scheme name tail, hcolon, by simp [Location.text], hdriver,
        (Except.ok.inj h).symm⟩
    | behind name first tail hslash =>
      exact .inr ⟨.behind name first tail hslash, hcolon, by simp [Location.text], hdriver,
        (Except.ok.inj h).symm⟩

/-- Where the location names the driver, it names no profile. -/
theorem driverFromUri_cases {db db' : TempDatabase} (h : driverFromUri db = .ok db')
    (hne : db'.driver ≠ []) : (db.driver ≠ [] ∧ db' = db) ∨
      db.driver = [] ∧ ∃ l : Location, l.WellFormed ∧ ¬ NamesProfile l.text ∧
        db.options.lookup uriKey = some l.text ∧ db'.driver = l.name ∧
        db'.options.lookup uriKey = some l.location := by
  rw [driverFromUri] at h
  cases huri : db.options.lookup uriKey with
  | none =>
    rw [huri] at h
    obtain rfl := Except.ok.inj h
    exact .inl ⟨hne, rfl⟩
  | some location =>
    rw [huri] at h
    simp only at h
    by_cases hdriver : db.driver ≠ []
    · rw [if_pos hdriver] at h
      exact .inl ⟨hdriver, (Except.ok.inj h).symm⟩
    rw [if_neg hdriver] at h
    refine .inr ⟨by simpa using hdriver, ?_⟩
    by_cases hprofile : NamesProfile location
    · obtain ⟨x, name, rfl⟩ := hprofile
      rw [parseDriverUri_profile] at h
      cases h
    rcases text_cases hprofile with ⟨name, rfl, hcolon⟩ | ⟨l, rfl, hcolon⟩
    · rw [parseDriverUri_end hcolon] at h
      obtain rfl := Except.ok.inj h
      exact absurd hne hdriver
    · rw [parseDriverUri_text hcolon hprofile] at h
      cases l with
      | bare name =>
        obtain rfl := Except.ok.inj h
        exact ⟨.bare name, ⟨hne, hcolon⟩, hprofile, rfl, rfl, huri⟩
      | scheme name tail =>
        obtain rfl := Except.ok.inj h
        exact ⟨.scheme name tail, ⟨hne, hcolon⟩, hprofile, rfl, rfl, AList.lookup_insert _⟩
      | behind name first tail hslash =>
        obtain rfl := Except.ok.inj h
        exact ⟨.behind name first tail hslash, ⟨hne, hcolon⟩, hprofile, rfl, rfl,
          AList.lookup_insert _⟩

section Precedence
variable {β : Type}

end Precedence

/-- The options that a profile has, of the three types that a profile file can give them. -/
structure ProfileOptions where
  options : List (List Char × List Char)
  intOptions : List (List Char × Int)
  doubleOptions : List (List Char × Double)

/-- **The options of a profile** are added where none is set, with their values expanded. -/
structure Adds (getenv : List Char → Option (List Char)) (p : ProfileOptions)
    (args args' : TempDatabase) : Prop where
  options : ∀ k v, args'.options.lookup k = some v ↔ args.options.lookup k = some v ∨
    args.options.lookup k = none ∧ ∃ raw, p.options.lookup k = some raw ∧ Expands getenv raw v
  intOptions : ∀ k, args'.intOptions.lookup k =
    (args.intOptions.lookup k).or (p.intOptions.lookup k)
  doubleOptions : ∀ k, args'.doubleOptions.lookup k =
    (args.doubleOptions.lookup k).or (p.doubleOptions.lookup k)

/-- A profile that was found, with its options. -/
structure Found (env : Surroundings) (name searchPath : List Char) (found : ConnectionProfile)
    (p : ProfileOptions) : Prop where
  provided : env.profileProvider name searchPath = .ok found
  options : found.getOptions = .ok p.options
  intOptions : found.getIntOptions = .ok p.intOptions
  doubleOptions : found.getDoubleOptions = .ok p.doubleOptions

/-- Apart from the options, only the driver is set. -/
def SetsDriver (found : ConnectionProfile) (name : List Char) (args args' : TempDatabase) : Prop :=
  ∃ driverName initFunc args₁, found.getDriverName = .ok (driverName, initFunc) ∧
    setDriver args name driverName = .ok args₁ ∧
    args' = { args₁ with
      initFunc := initFunc <|> args₁.initFunc
      options := args'.options
      intOptions := args'.intOptions
      doubleOptions := args'.doubleOptions }

/-- Only the driver and the location are different. -/
structure SameOptions (db db' : TempDatabase) : Prop where
  options : ∀ k, k ≠ uriKey → db'.options.lookup k = db.options.lookup k
  rest : db' = { db with driver := db'.driver, options := db'.options }

theorem SameOptions.intOptions {db db' : TempDatabase} (h : SameOptions db db') :
    db'.intOptions = db.intOptions := by
  rw [h.rest]

theorem SameOptions.doubleOptions {db db' : TempDatabase} (h : SameOptions db db') :
    db'.doubleOptions = db.doubleOptions := by
  rw [h.rest]

theorem SameOptions.refl (db : TempDatabase) : SameOptions db db := ⟨fun _ _ => rfl, rfl⟩

theorem SameOptions.trans {db db' db'' : TempDatabase} (h : SameOptions db db')
    (h' : SameOptions db' db'') : SameOptions db db'' :=
  ⟨fun k hk => (h'.options k hk).trans (h.options k hk), h'.rest.trans (by rw [h.rest])⟩

/-- Where a profile may be named: in the option for it, in the location, or in the driver. -/
inductive ProfilePlace where
  | option
  | uri
  | driver

/-- A profile with this name is named there, among what was set for the database. -/
inductive NamedBy (db : TempDatabase) : ProfilePlace → List Char → Prop where
  | option {name : List Char} (h : db.options.lookup profileKey = some name) :
      NamedBy db .option name
  | uri {x : Char} {name : List Char}
      (h : db.options.lookup uriKey = some ("profile".toList ++ ':' :: '/' :: x :: name)) :
      NamedBy db .uri name
  | driver {x : Char} {name : List Char}
      (h : db.driver = "profile".toList ++ ':' :: '/' :: x :: name) : NamedBy db .driver name

/-- The database without what named the profile. -/
def TempDatabase.without (db : TempDatabase) : ProfilePlace → TempDatabase
  | .option => { db with options := db.options.erase profileKey }
  | .uri => { db with options := db.options.erase uriKey }
  | .driver => { db with driver := [] }

/-- The options do not depend on what named the profile, apart from the option for it. -/
theorem without_lookup (db : TempDatabase) (place : ProfilePlace) {k : List Char}
    (huri : k ≠ uriKey) (hprofile : k ≠ profileKey) :
    (db.without place).options.lookup k = db.options.lookup k := by
  cases place with
  | option => exact AList.lookup_erase_ne hprofile
  | uri => exact AList.lookup_erase_ne huri
  | driver => rfl

/-- **What the first part does**: it adds the options of the profile that is named, if there is
one, and sets its driver. -/
inductive Applies (env : Surroundings) (db : TempDatabase) : TempDatabase → ProfileOptions → Prop where
  | unnamed (hnone : ∀ place name, ¬ NamedBy db place name) : Applies env db db ⟨[], [], []⟩
  | empty {place : ProfilePlace} (hnamed : NamedBy db place [])
      (honly : ∀ place' name, NamedBy db place' name → place' = place ∧ name = []) :
      Applies env db (db.without place) ⟨[], [], []⟩
  | profile {place : ProfilePlace} {name : List Char} {found : ConnectionProfile}
      {db' : TempDatabase} {p : ProfileOptions} (hnamed : NamedBy db place name) (hne : name ≠ [])
      (honly : ∀ place' name', NamedBy db place' name' → place' = place ∧ name' = name)
      (hfound : Found env name db.additionalProfileSearchPathList found p)
      (hadds : Adds env.getenv p (db.without place) db')
      (hdriver : SetsDriver found name (db.without place) db') : Applies env db db' p

/-- The options after the first part: those that were set go first. -/
theorem Applies.options {env : Surroundings} {db db' : TempDatabase} {p : ProfileOptions}
    (h : Applies env db db' p) {k : List Char} (hk : k ≠ uriKey) (v : List Char) :
    db'.options.lookup k = some v ↔ (k ≠ profileKey ∧ db.options.lookup k = some v) ∨
      ((k = profileKey ∨ db.options.lookup k = none) ∧
        ∃ raw, p.options.lookup k = some raw ∧ Expands env.getenv raw v) := by
  have hoption : ∀ {place : ProfilePlace},
      (∀ place' name, NamedBy db place' name → place' = place) →
      (db.without place).options.lookup k =
        if k = profileKey then none else db.options.lookup k := by
    intro place honly
    by_cases hprofile : k = profileKey
    · rw [if_pos hprofile, hprofile]
      cases place with
      | option => exact AList.lookup_erase profileKey db.options
      | uri =>
        refine (AList.lookup_erase_ne (by decide)).trans (Option.eq_none_iff_forall_ne_some.mpr ?_)
        exact fun name hname => (by cases honly _ _ (.option hname))
      | driver =>
        refine Option.eq_none_iff_forall_ne_some.mpr ?_
        exact fun name hname => (by cases honly _ _ (.option hname))
    · rw [if_neg hprofile, without_lookup db place hk hprofile]
  cases h with
  | unnamed hnone =>
    by_cases hprofile : k = profileKey
    · subst hprofile
      have hunset : db.options.lookup profileKey = none :=
        Option.eq_none_iff_forall_ne_some.mpr fun name hname => hnone _ _ (.option hname)
      simp [hunset]
    · simp [hprofile]
  | empty hnamed honly =>
    rw [hoption fun place' name h => (honly place' name h).1]
    by_cases hprofile : k = profileKey
    · simp [hprofile]
    · simp [hprofile]
  | profile hnamed hne honly hfound hadds hdriver =>
    rw [hadds.options, hoption fun place' name h => (honly place' name h).1]
    by_cases hprofile : k = profileKey
    · simp [hprofile]
    · simp [hprofile]

/-- **The profile that is given**: none is named, or one whose name is empty; or there is a profile
for the one name, and it names no other profile, neither as its driver nor, if nobody says which
driver, as a location that it adds. -/
inductive Given (env : Surroundings) (db : TempDatabase) : ProfileOptions → Prop where
  | nothing (hnone : ∀ place name, NamedBy db place name → name = []) : Given env db ⟨[], [], []⟩
  | profile {place : ProfilePlace} {name : List Char} {found : ConnectionProfile}
      {p : ProfileOptions} (hnamed : NamedBy db place name) (hne : name ≠ [])
      (honly : ∀ place' name', NamedBy db place' name' → place' = place ∧ name' = name)
      (hfound : Found env name db.additionalProfileSearchPathList found p)
      (hdriver : ∀ driver initFunc, found.getDriverName = .ok (some driver, initFunc) →
        ¬ NamesProfile driver)
      (huri : (db.without place).driver = [] →
        (∀ driver initFunc, found.getDriverName = .ok (some driver, initFunc) → driver = []) →
        (db.without place).options.lookup uriKey = none →
        ∀ raw uri, p.options.lookup uriKey = some raw → Expands env.getenv raw uri →
          ¬ NamesProfile uri) : Given env db p

theorem Applies.given {env : Surroundings} {db db₁ db₂ db₃ : TempDatabase} {p : ProfileOptions}
    (h : Applies env db db₁ p) (hsplit : splitDriver db₁ = .ok db₂)
    (hfrom : driverFromUri db₂ = .ok db₃) (hne : db₃.driver ≠ []) : Given env db p := by
  cases h with
  | unnamed hnone => exact .nothing fun place name h => absurd h (hnone place name)
  | empty hnamed honly => exact .nothing fun place name h => (honly place name h).2
  | @profile place name found _ _ hnamed hname honly hfound hadds hsets =>
    obtain ⟨driverName, initFunc, args₁, hgot, hset, hdb⟩ := hsets
    have hdriver₁ : db₁.driver = args₁.driver := by rw [hdb]
    have hcases := splitDriver_cases hsplit
    refine .profile hnamed hname honly hfound (fun driver initFunc' hgot' => ?_)
      fun hunset hempty huri raw uri hraw hexpands => ?_
    · -- the driver of the profile is the driver that is split
      obtain ⟨rfl, -⟩ := Prod.mk.inj (Except.ok.inj (hgot.symm.trans hgot'))
      rw [setDriver] at hset
      by_cases hdriver : driver = []
      · rw [hdriver]
        rintro ⟨x, name, h⟩
        cases h
      · rw [if_neg hdriver] at hset
        split at hset
        · cases hset
        · have hsame : db₁.driver = driver := by
            rw [hdriver₁, ← Except.ok.inj hset]
          rw [← hsame]
          exact hcases.1
    · -- nobody says which driver, so that the location is looked at
      have hnone : db₁.driver = [] := by
        rw [hdriver₁]
        cases driverName with
        | none =>
          obtain rfl := Except.ok.inj hset
          exact hunset
        | some driver =>
          rw [setDriver, if_pos (hempty driver initFunc hgot)] at hset
          obtain rfl := Except.ok.inj hset
          exact hunset
      have hlookup : db₁.options.lookup uriKey = some uri :=
        (hadds.options uriKey uri).mpr (.inr ⟨huri, raw, hraw, hexpands⟩)
      obtain ⟨-, ⟨rfl, -⟩ | ⟨l, hcolon, htext, hdriver, -⟩⟩ := hcases
      · rcases driverFromUri_cases hfrom hne with ⟨hkept, -⟩ | ⟨-, l, -, hprofile, hsame, -⟩
        · exact absurd hnone hkept
        · rw [hlookup] at hsame
          rwa [Option.some.inj hsame]
      · rw [hnone] at hdriver
        rw [← hdriver] at htext
        cases htext

end DriverManager
end AdbcClient
