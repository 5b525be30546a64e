import Polyglot.Catalog.Reading
import Polyglot.Disk
import Polyglot.Surroundings

/-!
The registry: which locales have a catalog, and where. Every code is registered once, at the first
file that claims it. A registry is either listed, from the known locales, or discovered, from the
files of a directory.
-/

namespace Polyglot

/-- A locale and the path of its catalog. -/
structure Registration where
  locale : Locale
  path : String
  deriving DecidableEq, Repr

def Registration.code (registration : Registration) : String := registration.locale.code

/-- Registrations in their order, no two with the same code. -/
structure Registry where
  entries : List Registration
  nodup : (entries.map Registration.code).Nodup

namespace Registry

def empty : Registry := ⟨[], List.nodup_nil⟩

def find? (registry : Registry) (code : String) : Option Registration :=
  registry.entries.find? (·.code == code)

def contains (registry : Registry) (code : String) : Bool := (registry.find? code).isSome

def codes (registry : Registry) : List String := registry.entries.map Registration.code

def size (registry : Registry) : Nat := registry.entries.length

def locales (registry : Registry) : List Locale := registry.entries.map (·.locale)

def locale? (registry : Registry) (code : String) : Option Locale :=
  (registry.find? code).map (·.locale)

def path? (registry : Registry) (code : String) : Option String :=
  (registry.find? code).map (·.path)

/-- Registers a locale at the end, unless its code is taken. -/
def add (registry : Registry) (registration : Registration) : Registry :=
  if h : registration.code ∈ registry.codes then registry
  else
    ⟨registry.entries ++ [registration], by
      have nodup := registry.nodup
      simp only [codes] at h
      simp only [List.map_append, List.map_cons, List.map_nil, List.nodup_append, nodup,
        List.nodup_cons, List.not_mem_nil, not_false_eq_true, List.nodup_nil, and_self,
        List.mem_singleton, true_and]
      intro a ha b hb
      subst hb
      exact fun hab => h (hab ▸ ha)⟩

def duplicateRecord (registration : Registration) : Record :=
  let text := s!"Duplicate locale detected: {registration.code} ({registration.path})."
  ⟨.warning, .registry, text ++ " Keeping the first catalog."⟩

def ofList (registrations : List Registration) : Registry × Journal :=
  registrations.foldl
    (fun (registry, journal) registration =>
      if registry.contains registration.code then
        (registry, journal ++ [duplicateRecord registration])
      else (registry.add registration, journal))
    (empty, [])

def fileName (config : Config) (language : String) : String :=
  config.filePrefix ++ language ++ config.fileSuffix

/-- The registry of the known locales; the catalog of each is named for its language. -/
def listed (config : Config) (directory : String) : Registry × Journal :=
  ofList <| config.known.map fun (code, name) =>
    ⟨⟨code, name⟩, joinPath directory (fileName config (languageOf code))⟩

/-! ### Discovery -/

/-- A file name has the form of a catalog's: the configured beginning and end, which do not
overlap. -/
def isCatalogName (config : Config) (name : String) : Bool :=
  let front := config.filePrefix.toList
  let back := config.fileSuffix.toList
  front.isPrefixOf name.toList && back.isSuffixOf (name.toList.drop front.length)

/-- The display name of a code: the last one that the known locales give, or the code. -/
def displayName (config : Config) (code : String) : String :=
  (config.known.reverse.lookup code).getD code

/-- The code that a file declares, in normal form, and what there is to report about it. -/
def declaredCode (disk : Disk) (path : String) : Option String × Journal :=
  match disk.read path with
  | .error cause =>
    (none, [⟨.warning, .registry, s!"Unable to read catalog {path}: {cause.message path}"⟩])
  | .ok bytes =>
    match Catalog.declaredLanguage? bytes with
    | none => (none, [])
    | some declared =>
      match normalizeCode declared with
      | .ok code => (some code, [])
      | .error _ =>
        (none, [⟨.warning, .registry,
          s!"Catalog {path} declares invalid locale {quoted declared}"⟩])

/-- The registration of a file. A file without a locale is passed over. -/
def registration? (config : Config) (disk : Disk) (path : String) :
    Option Registration × Journal :=
  match declaredCode disk path with
  | (some code, journal) => (some ⟨⟨code, displayName config code⟩, path⟩, journal)
  | (none, journal) =>
    (none, journal ++ [⟨.warning, .registry, s!"Skipping catalog {path}: no locale declared"⟩])

/-- The paths of the catalog files in a directory, in ascending order of their names. -/
def catalogPaths (config : Config) (disk : Disk) (directory : String) : List String :=
  ((disk.names directory).filter (isCatalogName config)).map (joinPath directory)

/-- The registry of the locales that the files of a directory declare. -/
def discover (config : Config) (disk : Disk) (directory : String) : Registry × Journal :=
  if disk.exists? directory then
    let found := (catalogPaths config disk directory).map (registration? config disk)
    let (registry, journal) := ofList (found.filterMap (·.1))
    (registry, found.flatMap (·.2) ++ journal)
  else
    (empty, [⟨.warning, .registry, s!"Translations directory {directory} does not exist"⟩])

/-! ### Matching -/

/-- The locale that a loosely spelled code means: the one with its normal form, or the first with
its language. -/
def match? (registry : Registry) (code : String) : Option Locale :=
  match normalizeCode code with
  | .error _ => none
  | .ok normal =>
    match registry.locale? normal with
    | some locale => some locale
    | none => registry.locales.find? (·.language == languageOf normal)

/-- A candidate that names no language. -/
def isNeutral (candidate : String) : Bool :=
  candidate == "C" || candidate == "POSIX" || ['C', '.'].isPrefixOf candidate.toList

/-- The registered locale that fits the surroundings best, and the record of it. -/
def detect (registry : Registry) (surroundings : Surroundings) : Option Locale × Journal :=
  let matched := (surroundings.candidates.filter (!isNeutral ·)).findSome? fun candidate =>
    (registry.match? candidate).map (·, candidate)
  match matched with
  | some (locale, candidate) =>
    (some locale, [⟨.debug, .registry,
      s!"Detected system locale {locale.code} from {quoted candidate}"⟩])
  | none => (none, [])

end Registry
end Polyglot
