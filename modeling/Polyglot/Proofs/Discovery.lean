import Mathlib.Data.List.Nodup
import Polyglot.Proofs.Library

/-!
What a registry has registered. The first registration of a code wins, so a registry finds for a
code what the list that it is made from has first. A discovered registry finds the first file that
declares the code, and its codes are in normal form. Discovery and loading agree on a file: as long
as no file is changed, a discovered locale has its catalog at its path, and only the document itself
or what is inside its root can be at fault.
-/

namespace Polyglot

namespace Registry

/-! ### Registering -/

theorem contains_iff {registry : Registry} {code : String} :
    registry.contains code = true ↔ code ∈ registry.codes := by
  simp [contains, find?, codes]

theorem add_of_contains {registry : Registry} {registration : Registration}
    (h : registry.contains registration.code = true) : registry.add registration = registry := by
  rw [add, dif_pos (contains_iff.mp h)]

theorem find?_add (registry : Registry) (registration : Registration) (code : String) :
    (registry.add registration).find? code =
      (registry.find? code).or ([registration].find? (·.code == code)) := by
  cases htaken : registry.contains registration.code with
  | true =>
      rw [add_of_contains htaken]
      by_cases hcode : registration.code = code
      · subst hcode
        obtain ⟨other, hother⟩ := Option.isSome_iff_exists.mp htaken
        rw [hother, Option.some_or]
      · simp [hcode]
  | false =>
      have hnew : registration.code ∉ registry.codes := by
        rw [← contains_iff, htaken]
        exact Bool.false_ne_true
      rw [add, dif_neg hnew, find?, List.find?_append, find?]

theorem find?_foldl_add (registrations : List Registration) (registry : Registry) (code : String) :
    (registrations.foldl add registry).find? code =
      (registry.find? code).or (registrations.find? (·.code == code)) := by
  induction registrations generalizing registry with
  | nil => simp
  | cons registration rest ih =>
      rw [List.foldl_cons, ih, find?_add, Option.or_assoc, ← List.find?_append,
        List.singleton_append]

/-- Apart from what is reported of duplicates, a list is registered one by one. -/
theorem ofList_eq_foldl_add (registrations : List Registration) :
    (ofList registrations).1 = registrations.foldl add empty := by
  rw [ofList]
  refine (List.foldl_hom Prod.fst fun state registration => ?_).symm
  obtain ⟨registry, journal⟩ := state
  cases htaken : registry.contains registration.code with
  | true => simp only [htaken, add_of_contains htaken, if_true]
  | false => simp only [htaken, Bool.false_eq_true, if_false]

/-- Of the registrations of a code the first one counts. -/
theorem find?_ofList (registrations : List Registration) (code : String) :
    (ofList registrations).1.find? code = registrations.find? (·.code == code) := by
  rw [ofList_eq_foldl_add, find?_foldl_add]
  rfl

theorem mem_locales_iff {registry : Registry} {locale : Locale} :
    locale ∈ registry.locales ↔
      ∃ registration, registry.find? locale.code = some registration ∧
        registration.locale = locale := by
  constructor
  · intro h
    obtain ⟨registration, hmem, rfl⟩ := List.mem_map.mp h
    refine ⟨registration, ?_, rfl⟩
    obtain ⟨other, hother⟩ : ∃ other, registry.find? registration.code = some other :=
      Option.isSome_iff_exists.mp (contains_iff.mpr (List.mem_map_of_mem hmem))
    have hsame : other = registration := List.inj_on_of_nodup_map registry.nodup
      (List.mem_of_find?_eq_some hother) hmem (code_of_find? hother)
    exact hsame ▸ hother
  · rintro ⟨registration, hfind, rfl⟩
    exact List.mem_map_of_mem (List.mem_of_find?_eq_some hfind)

theorem locale?_of_mem {registry : Registry} {locale : Locale} (h : locale ∈ registry.locales) :
    registry.locale? locale.code = some locale := by
  obtain ⟨registration, hfind, rfl⟩ := mem_locales_iff.mp h
  exact locale?_of_find? hfind

theorem mem_locales_of_locale? {registry : Registry} {code : String} {locale : Locale}
    (h : registry.locale? code = some locale) : locale ∈ registry.locales := by
  obtain ⟨registration, hfind, rfl⟩ := Option.map_eq_some_iff.mp h
  exact List.mem_map_of_mem (List.mem_of_find?_eq_some hfind)

theorem exists_locale_of_contains {registry : Registry} {code : String}
    (h : registry.contains code = true) : ∃ locale ∈ registry.locales, locale.code = code := by
  obtain ⟨registration, hfind⟩ := Option.isSome_iff_exists.mp h
  exact ⟨registration.locale, mem_locales_of_locale? (locale?_of_find? hfind),
    code_of_find? hfind⟩

theorem size_ne_zero_of_mem {registry : Registry} {locale : Locale}
    (h : locale ∈ registry.locales) : registry.size ≠ 0 := by
  intro hzero
  rw [locales, List.length_eq_zero_iff.mp hzero] at h
  cases h

/-! ### Discovering -/

theorem declaredCode_eq_some {disk : Disk} {path code : String}
    (h : (declaredCode disk path).1 = some code) :
    ∃ bytes declared, disk.read path = .ok bytes ∧
      Catalog.declaredLanguage? bytes = some declared ∧ normalizeCode declared = .ok code := by
  simp only [declaredCode] at h
  split at h
  · cases h
  · rename_i bytes hread
    split at h
    · cases h
    · rename_i declared hdeclared
      split at h
      · rename_i normal hnormal
        cases h
        exact ⟨bytes, declared, hread, hdeclared, hnormal⟩
      · cases h

theorem registration?_fst (config : Config) (disk : Disk) (path : String) :
    (registration? config disk path).1 = (declaredCode disk path).1.map fun code =>
      ⟨⟨code, displayName config code⟩, path⟩ := by
  rw [registration?]
  split <;> rename_i hdeclared <;> rw [hdeclared] <;> rfl

/-- The file that counts for a code: the first one in the directory that declares it. -/
def firstFile? (config : Config) (disk : Disk) (directory code : String) : Option String :=
  if disk.exists? directory then
    (catalogPaths config disk directory).find? fun path => (declaredCode disk path).1 == some code
  else none

theorem firstFile?_eq_some {config : Config} {disk : Disk} {directory code path : String}
    (h : firstFile? config disk directory code = some path) :
    path ∈ catalogPaths config disk directory ∧ (declaredCode disk path).1 = some code := by
  rw [firstFile?] at h
  split at h
  · have hdeclared := List.find?_some h
    exact ⟨List.mem_of_find?_eq_some h, eq_of_beq hdeclared⟩
  · cases h

/-- A code is registered at the file that counts for it. -/
theorem find?_discover (config : Config) (disk : Disk) (directory code : String) :
    (discover config disk directory).1.find? code =
      (firstFile? config disk directory code).map fun path =>
        ⟨⟨code, displayName config code⟩, path⟩ := by
  simp only [discover, firstFile?]
  split
  · have hpredicate (path : String) :
        ((registration? config disk path).1.any fun registration => registration.code == code) =
          ((declaredCode disk path).1 == some code) := by
      rw [registration?_fst]
      cases (declaredCode disk path).1 <;> rfl
    rw [find?_ofList, List.filterMap_map, List.find?_filterMap]
    simp only [Function.comp_def, hpredicate]
    cases hfirst : (catalogPaths config disk directory).find? fun path =>
        (declaredCode disk path).1 == some code with
    | none => rfl
    | some path =>
        have hdeclared := List.find?_some hfirst
        simp only [Option.bind_some, registration?_fst, eq_of_beq hdeclared, Option.map_some]
  · rfl

/-- A discovered locale is registered at a catalog file of the directory, and its code is the normal
form of what the file declares. -/
theorem file_of_discover {config : Config} {disk : Disk} {directory code : String}
    {registration : Registration}
    (h : (discover config disk directory).1.find? code = some registration) :
    registration.path ∈ catalogPaths config disk directory ∧
      ∃ bytes declared, disk.read registration.path = .ok bytes ∧
        Catalog.declaredLanguage? bytes = some declared ∧ normalizeCode declared = .ok code := by
  rw [find?_discover] at h
  obtain ⟨path, hfirst, rfl⟩ := Option.map_eq_some_iff.mp h
  obtain ⟨hpath, hdeclared⟩ := firstFile?_eq_some hfirst
  exact ⟨hpath, declaredCode_eq_some hdeclared⟩

/-- The code of a discovered locale is the normal form of what a file declares. -/
theorem normalizeCode_of_discover {config : Config} {disk : Disk} {directory code : String}
    (h : (discover config disk directory).1.contains code = true) :
    ∃ declared, normalizeCode declared = .ok code := by
  obtain ⟨registration, hfind⟩ := Option.isSome_iff_exists.mp h
  obtain ⟨-, -, declared, -, -, hnormal⟩ := file_of_discover hfind
  exact ⟨declared, hnormal⟩

end Registry

theorem Disk.names_of_sorted {disk : Disk} {directory : String}
    (h : (disk.keys.filterMap (Disk.nameIn? directory)).Pairwise fun a b => !(b < a)) :
    disk.names directory = disk.keys.filterMap (Disk.nameIn? directory) :=
  List.mergeSort_of_pairwise h

/-! ### Loading what has been discovered -/

/-- A well-formed document that declares a language has a root, which declares it. -/
theorem Catalog.root_of_declaredLanguage? {bytes : ByteArray} {declared : String}
    {document : Xml.Document} (hdeclared : declaredLanguage? bytes = some declared)
    (hparse : Xml.Document.parse? bytes = some document) :
    ∃ root, rootOf? document = some root ∧ root.attribute? "language" = some declared := by
  simp only [declaredLanguage?, hparse] at hdeclared
  obtain ⟨hbind, -⟩ := Option.filter_eq_some_iff.mp hdeclared
  exact Option.bind_eq_some_iff.mp hbind

/-- What there is to say about loading the catalog of a discovered locale. -/
structure Library.Agrees (library : Library) (code : String) (registration : Registration)
    (bytes : ByteArray) (declared : String) : Prop where
  found : library.store.registry.find? code = some registration
  read : library.disk.read registration.path = .ok bytes
  normal : normalizeCode declared = .ok code
  /-- A well-formed document has a root, with the language that was discovered. -/
  root : ∀ document, Xml.Document.parse? bytes = some document →
    ∃ root, Catalog.rootOf? document = some root ∧ root.attribute? "language" = some declared
  /-- A document that is not well-formed is refused as such. -/
  malformed : library.store.cached.get? code = none → Xml.Document.parse? bytes = none →
    (library.load code).1 = .error (.catalog ⟨.malformed, code, none, none⟩)
  /-- In any other document only what is inside the root can be at fault, or the schema version that
  the root declares is too long. -/
  inner : ∀ error, (library.load code).1 = .error error →
    (Xml.Document.parse? bytes = none ∧ error = .catalog ⟨.malformed, code, none, none⟩) ∨
      ((Xml.Document.parse? bytes).isSome = true ∧ error.Inner code) ∨
      ∃ digits, error = .version (.oversized digits) ∧ Catalog.Overlong bytes digits

theorem Library.load_of_not_cached {library : Library} {code : String}
    (h : library.store.cached.get? code = none) :
    (library.load code).1 = (library.store.fetch library.disk code).outcome := by
  cases hfetch : (library.store.fetch library.disk code).outcome with
  | error error => rw [load_of_error h hfetch]
  | ok catalog => rw [load_of_ok h hfetch]

/-- Discovery and loading agree on a file. As long as no catalog file of the directory has been
changed, loading a discovered locale does not fail because of its registration, its file, its root
or its language. -/
theorem Library.agrees_of_discover {config : Config} {disk : Disk} {directory code : String}
    {library : Library}
    (hminimum : (Version.parse? library.store.config.minVersion).isSome = true)
    (hregistry : library.store.registry = (Registry.discover config disk directory).1)
    (hfiles : ∀ path ∈ Registry.catalogPaths config disk directory,
      library.disk.read path = disk.read path)
    (hcode : (Registry.discover config disk directory).1.contains code = true) :
    ∃ registration bytes declared, library.Agrees code registration bytes declared := by
  obtain ⟨registration, hfind⟩ := Option.isSome_iff_exists.mp hcode
  obtain ⟨hpath, bytes, declared, hread, hdeclared, hnormal⟩ := Registry.file_of_discover hfind
  have hlocale := Registry.code_of_find? hfind
  rw [← hregistry] at hfind
  rw [← hfiles _ hpath] at hread
  have hfetch : library.store.fetch library.disk code =
      Catalog.ofBytes library.store.config registration.locale bytes := by
    simp only [Store.fetch, hfind, hread]
  have hroot (document : Xml.Document) (hparse : Xml.Document.parse? bytes = some document) :=
    Catalog.root_of_declaredLanguage? hdeclared hparse
  refine ⟨registration, bytes, declared, hfind, hread, hnormal, hroot, fun hcached hparse => ?_,
    fun error herror => ?_⟩
  · rw [load_of_not_cached hcached, hfetch]
    simp only [Catalog.ofBytes, hparse, hlocale]
  · cases hcached : library.store.cached.get? code with
    | some catalog =>
        rw [load_of_cached hcached] at herror
        cases herror
    | none =>
        rw [load_of_not_cached hcached, hfetch] at herror
        cases hparse : Xml.Document.parse? bytes with
        | none =>
            simp only [Catalog.ofBytes, hparse] at herror
            cases herror
            exact Or.inl ⟨rfl, by rw [hlocale]⟩
        | some document =>
            obtain ⟨root, hroot, hlanguage⟩ := hroot document hparse
            rcases Catalog.ofBytes_error_of_declared hminimum hparse hroot hlanguage
              (hlocale.symm ▸ hnormal) herror with hinner | hoverlong
            · exact Or.inr (Or.inl ⟨rfl, hlocale ▸ hinner⟩)
            · exact Or.inr (Or.inr hoverlong)

/-! ### Two catalogs that do not load -/

/-- A directory with a catalog that breaks off, and one of a version to come. -/
def unfinishedDirectory : Disk := [
  ("lang", .directory),
  ("lang/veil_de.ts", .file "<TS language=\"de-DE\" version=\"2.1\"><context>".toUTF8),
  ("lang/veil_ru.ts", .file "<TS language=\"ru\" version=\"3.0\"/>".toUTF8)]

def unfinishedLibrary : Library where
  store.registry := (Registry.discover .standard unfinishedDirectory "lang").1
  store.config := .standard
  disk := unfinishedDirectory

theorem Registry.entries_unfinished : unfinishedLibrary.store.registry.entries =
    [⟨⟨"de_DE", "de_DE"⟩, "lang/veil_de.ts"⟩, ⟨⟨"ru", "ru"⟩, "lang/veil_ru.ts"⟩] := by
  have hexists : unfinishedDirectory.exists? "lang" = true := rfl
  have hnames : unfinishedDirectory.names "lang" = ["veil_de.ts", "veil_ru.ts"] :=
    Disk.names_of_sorted (by decide)
  simp only [unfinishedLibrary, discover, hexists, if_true, catalogPaths, hnames]
  decide +kernel

theorem Library.agrees_of_discover_unfinished :
    (Version.parse? unfinishedLibrary.store.config.minVersion).isSome = true ∧
      (Registry.discover .standard unfinishedDirectory "lang").1.contains "de_DE" = true ∧
      (unfinishedLibrary.load "de_DE").1 =
        .error (.catalog ⟨.malformed, "de_DE", none, none⟩) ∧
      (Registry.discover .standard unfinishedDirectory "lang").1.contains "ru" = true ∧
      ∃ error, (unfinishedLibrary.load "ru").1 = .error error ∧ error.Inner "ru" := by
  have hminimum : (Version.parse? unfinishedLibrary.store.config.minVersion).isSome = true :=
    Config.isSome_parse?_minVersion
  have hgerman : unfinishedLibrary.store.registry.find? "de_DE" =
      some ⟨⟨"de_DE", "de_DE"⟩, "lang/veil_de.ts"⟩ := by
    rw [Registry.find?, Registry.entries_unfinished]
    rfl
  have hrussian : unfinishedLibrary.store.registry.find? "ru" =
      some ⟨⟨"ru", "ru"⟩, "lang/veil_ru.ts"⟩ := by
    rw [Registry.find?, Registry.entries_unfinished]
    rfl
  have hcontains : (Registry.discover .standard unfinishedDirectory "lang").1.contains "de_DE" =
    true := congrArg Option.isSome hgerman
  have hcontains' : (Registry.discover .standard unfinishedDirectory "lang").1.contains "ru" =
    true := congrArg Option.isSome hrussian
  refine ⟨hminimum, hcontains, ?_, hcontains', ?_⟩
  · obtain ⟨registration, bytes, declared, hagrees⟩ :=
      agrees_of_discover hminimum rfl (fun _ _ => rfl) hcontains
    obtain rfl := Option.some.inj (hagrees.found.symm.trans hgerman)
    obtain rfl := Except.ok.inj hagrees.read
    exact hagrees.malformed rfl (Option.isNone_iff_eq_none.mp (by decide +kernel))
  · obtain ⟨registration, bytes, declared, hagrees⟩ :=
      agrees_of_discover hminimum rfl (fun _ _ => rfl) hcontains'
    obtain rfl := Option.some.inj (hagrees.found.symm.trans hrussian)
    obtain rfl := Except.ok.inj hagrees.read
    have hfetch : unfinishedLibrary.store.fetch unfinishedLibrary.disk "ru" =
        Catalog.ofBytes .standard ⟨"ru", "ru"⟩
          "<TS language=\"ru\" version=\"3.0\"/>".toUTF8 := by
      rw [Store.fetch, hrussian]
      rfl
    have hrefused : (Catalog.ofBytes .standard ⟨"ru", "ru"⟩
        "<TS language=\"ru\" version=\"3.0\"/>".toUTF8).outcome =
          .error (.catalog ⟨.unsupportedVersion "3.0", "ru", none, none⟩) := by
      decide +kernel
    have hload : (unfinishedLibrary.load "ru").1 =
        .error (.catalog ⟨.unsupportedVersion "3.0", "ru", none, none⟩) := by
      rw [load_of_not_cached rfl, hfetch, hrefused]
    rcases hagrees.inner _ hload with ⟨hmalformed, -⟩ | ⟨-, hinner⟩ | ⟨digits, hversion, -⟩
    · exact absurd (congrArg Option.isNone hmalformed) (by decide +kernel)
    · exact ⟨_, hload, hinner⟩
    · cases hversion

end Polyglot
