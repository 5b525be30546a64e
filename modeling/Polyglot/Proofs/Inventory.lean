import Mathlib.Data.List.Induction
import Mathlib.Data.List.Sort
import Mathlib.Data.String.Basic
import Polyglot.Proofs.Discovery
import Polyglot.Proofs.Table

/-!
What a discovered registry holds. Every code that a catalog file declares is registered once, at the
file with the least name that declares it, and the codes are in the order of these names. So a
registry depends on nothing but which files declare which codes: files that declare none may come
and go.
-/

namespace Polyglot

/-! ### Names in a directory -/

namespace Disk

variable {disk : Disk} {directory path name : String}

theorem nameIn?_eq_some_iff : nameIn? directory path = some name ↔
    path = directory ++ "/" ++ name ∧ name ≠ "" ∧ '/' ∉ name.toList := by
  have hfront : (directory ++ "/").toList = directory.toList ++ ['/'] := String.toList_append ..
  rw [nameIn?]
  constructor
  · intro h
    obtain ⟨⟨hstarts, hne, hslash⟩, hname⟩ := Option.ite_none_right_eq_some.mp h
    obtain ⟨rest, hrest⟩ := List.isPrefixOf_iff_prefix.mp hstarts
    rw [← hrest, List.drop_left] at hne hslash hname
    obtain rfl := Option.some.inj hname
    refine ⟨?_, by simpa using hne, by simpa using hslash⟩
    rw [← String.toList_inj, String.toList_append, hfront, String.toList_ofList, hrest]
  · rintro ⟨rfl, hne, hslash⟩
    rw [String.toList_append, hfront, List.drop_left, if_pos, String.ofList_toList]
    exact ⟨List.isPrefixOf_iff_prefix.mpr (List.prefix_append _ _), by simpa using hne,
      by simpa using hslash⟩

theorem mem_names : name ∈ disk.names directory ↔
    directory ++ "/" ++ name ∈ disk.keys ∧ name ≠ "" ∧ '/' ∉ name.toList := by
  simp only [names, List.mem_mergeSort, List.mem_filterMap, nameIn?_eq_some_iff]
  constructor
  · rintro ⟨path, hpath, rfl, hname⟩
    exact ⟨hpath, hname⟩
  · rintro ⟨hpath, hname⟩
    exact ⟨_, hpath, rfl, hname⟩

theorem pairwise_names (disk : Disk) (directory : String) :
    (disk.names directory).Pairwise (· ≤ ·) := by
  refine (List.pairwise_mergeSort (fun a b c hab hbc => ?_) (fun a b => ?_) _).imp ?_
  · simp only [Bool.not_eq_true', decide_eq_false_iff_not, not_lt] at hab hbc ⊢
    exact hab.trans hbc
  · simp only [Bool.or_eq_true, Bool.not_eq_true', decide_eq_false_iff_not, not_lt]
    exact le_total a b
  · intro a b hab
    simpa only [Bool.not_eq_true', decide_eq_false_iff_not, not_lt] using hab

theorem mem_keys_of_read {bytes : ByteArray} (h : disk.read path = .ok bytes) :
    path ∈ disk.keys := by
  by_contra hmissing
  rw [read, Table.get?_eq_none_iff.mpr hmissing] at h
  cases h

end Disk

/-- Paths in a directory are in the order of their names. -/
theorem strictMono_inDirectory (directory : String) :
    StrictMono fun name : String => directory ++ "/" ++ name := by
  intro name other h
  rw [String.lt_iff_toList_lt] at h
  simp only [String.lt_iff_toList_lt, String.toList_append]
  exact List.append_left_lt h

namespace Registry

variable {config : Config} {disk other : Disk} {directory name path code : String}

/-! ### Declarations -/

theorem isCatalogName_iff : isCatalogName config name = true ↔
    ∃ middle, name = config.filePrefix ++ middle ++ config.fileSuffix := by
  simp only [isCatalogName, Bool.and_eq_true, List.isPrefixOf_iff_prefix,
    List.isSuffixOf_iff_suffix]
  constructor
  · rintro ⟨⟨rest, hrest⟩, hback⟩
    rw [← hrest, List.drop_left] at hback
    obtain ⟨middle, hmiddle⟩ := hback
    refine ⟨String.ofList middle, ?_⟩
    rw [← String.toList_inj, String.toList_append, String.toList_append, String.toList_ofList,
      List.append_assoc, hmiddle, hrest]
  · rintro ⟨middle, rfl⟩
    rw [String.append_assoc, String.toList_append, List.drop_left, String.toList_append]
    exact ⟨List.prefix_append _ _, List.suffix_append _ _⟩

/-- The name of a catalog file in a directory: it begins and ends as configured, without overlap. -/
structure CatalogName (config : Config) (name : String) : Prop where
  inside : name ≠ "" ∧ '/' ∉ name.toList
  affixed : ∃ middle, name = config.filePrefix ++ middle ++ config.fileSuffix

/-- A readable file of a directory, with the name of a catalog, declares a language with a certain
normal form. -/
structure Declares (config : Config) (disk : Disk) (directory name code : String) : Prop where
  exists? : disk.exists? directory = true
  named : CatalogName config name
  declared : ∃ bytes language, disk.read (directory ++ "/" ++ name) = .ok bytes ∧
    Catalog.declaredLanguage? bytes = some language ∧ normalizeCode language = .ok code

theorem declaredCode_eq_some_iff : (declaredCode disk path).1 = some code ↔
    ∃ bytes language, disk.read path = .ok bytes ∧
      Catalog.declaredLanguage? bytes = some language ∧ normalizeCode language = .ok code := by
  constructor
  · exact declaredCode_eq_some
  · rintro ⟨bytes, language, hread, hlanguage, hnormal⟩
    simp only [declaredCode, hread, hlanguage, hnormal]

theorem mem_catalogPaths : path ∈ catalogPaths config disk directory ↔
    ∃ name, path = directory ++ "/" ++ name ∧ path ∈ disk.keys ∧ CatalogName config name := by
  simp only [catalogPaths, List.mem_map, List.mem_filter, Disk.mem_names, isCatalogName_iff]
  constructor
  · rintro ⟨name, ⟨⟨hkey, hinside⟩, haffixed⟩, rfl⟩
    rw [joinPath, if_neg hinside.1]
    exact ⟨name, rfl, hkey, hinside, haffixed⟩
  · rintro ⟨name, rfl, hkey, hinside, haffixed⟩
    exact ⟨name, ⟨⟨hkey, hinside⟩, haffixed⟩, if_neg hinside.1⟩

theorem exists_declares_iff : (∃ name, path = directory ++ "/" ++ name ∧
      Declares config disk directory name code) ↔
    disk.exists? directory = true ∧ path ∈ catalogPaths config disk directory ∧
      (declaredCode disk path).1 = some code := by
  rw [mem_catalogPaths, declaredCode_eq_some_iff]
  constructor
  · rintro ⟨name, rfl, hexists, hnamed, bytes, language, hread, hdeclared⟩
    exact ⟨hexists, ⟨name, rfl, Disk.mem_keys_of_read hread, hnamed⟩,
      bytes, language, hread, hdeclared⟩
  · rintro ⟨hexists, ⟨name, rfl, -, hnamed⟩, hdeclared⟩
    exact ⟨name, rfl, hexists, hnamed, hdeclared⟩

theorem pairwise_catalogPaths (config : Config) (disk : Disk) (directory : String) :
    (catalogPaths config disk directory).Pairwise (· ≤ ·) := by
  refine List.pairwise_map.mpr
    (((disk.pairwise_names directory).filter _).imp_of_mem fun hname hother hle => ?_)
  have hne := (Disk.mem_names.mp (List.mem_of_mem_filter hname)).2.1
  have hne' := (Disk.mem_names.mp (List.mem_of_mem_filter hother)).2.1
  rw [joinPath, joinPath, if_neg hne, if_neg hne']
  exact (strictMono_inDirectory directory).le_iff_le.mpr hle

/-! ### The first file that declares a code -/

/-- Of the files that declare a code, this one has the least name. -/
structure FirstToDeclare (config : Config) (disk : Disk) (directory name code : String) : Prop where
  declares : Declares config disk directory name code
  least : ∀ other, Declares config disk directory other code → name ≤ other

theorem FirstToDeclare.of_firstFile? (h : firstFile? config disk directory code = some path) :
    ∃ name, path = directory ++ "/" ++ name ∧
      FirstToDeclare config disk directory name code := by
  obtain ⟨hpath, hdeclared⟩ := firstFile?_eq_some h
  rw [firstFile?] at h
  split at h
  · rename_i hexists
    obtain ⟨name, rfl, hdeclares⟩ := exists_declares_iff.mpr ⟨hexists, hpath, hdeclared⟩
    refine ⟨name, rfl, hdeclares, fun other hother => ?_⟩
    obtain ⟨-, before, after, hsplit, hbefore⟩ := List.find?_eq_some_iff_append.mp h
    obtain ⟨-, hmem, hcode⟩ := exists_declares_iff.mp ⟨other, rfl, hother⟩
    have hsorted := pairwise_catalogPaths config disk directory
    rw [hsplit] at hmem hsorted
    rcases List.mem_append.mp hmem with hmem | hmem
    · have hpassed := hbefore _ hmem
      simp [hcode] at hpassed
    · refine (strictMono_inDirectory directory).le_iff_le.mp ?_
      rcases List.mem_cons.mp hmem with heq | hafter
      · exact heq.ge
      · exact (List.pairwise_cons.mp (List.pairwise_append.mp hsorted).2.1).1 _ hafter
  · cases h

theorem FirstToDeclare.name_unique {name' : String}
    (h : FirstToDeclare config disk directory name code)
    (h' : FirstToDeclare config disk directory name' code) : name = name' :=
  le_antisymm (h.least name' h'.declares) (h'.least name h.declares)

theorem isSome_firstFile?_iff : (firstFile? config disk directory code).isSome = true ↔
    ∃ name, Declares config disk directory name code := by
  constructor
  · intro h
    obtain ⟨path, hpath⟩ := Option.isSome_iff_exists.mp h
    obtain ⟨name, -, hfirst⟩ := FirstToDeclare.of_firstFile? hpath
    exact ⟨name, hfirst.declares⟩
  · rintro ⟨name, h⟩
    obtain ⟨hexists, hmem, hcode⟩ := exists_declares_iff.mp ⟨name, rfl, h⟩
    rw [firstFile?, if_pos hexists, List.find?_isSome]
    exact ⟨_, hmem, beq_iff_eq.mpr hcode⟩

theorem firstFile?_eq_some_iff : firstFile? config disk directory code = some path ↔
    ∃ name, path = directory ++ "/" ++ name ∧
      FirstToDeclare config disk directory name code := by
  constructor
  · exact FirstToDeclare.of_firstFile?
  · rintro ⟨name, rfl, hfirst⟩
    obtain ⟨path, hpath⟩ :=
      Option.isSome_iff_exists.mp (isSome_firstFile?_iff.mpr ⟨name, hfirst.declares⟩)
    obtain ⟨name', rfl, hfirst'⟩ := FirstToDeclare.of_firstFile? hpath
    rw [hpath, hfirst.name_unique hfirst']

/-! ### Display names -/

/-- The name that a code is displayed by: the last one of the known locales that has the code, or
the code itself. -/
inductive Displays (config : Config) (code : String) : String → Prop where
  | known (name : String) (before after : List (String × String))
      (hknown : config.known = before ++ (code, name) :: after)
      (hlast : ∀ pair ∈ after, pair.1 ≠ code) : Displays config code name
  | unknown (h : ∀ pair ∈ config.known, pair.1 ≠ code) : Displays config code code

theorem displays_displayName (config : Config) (code : String) :
    Displays config code (displayName config code) := by
  rw [displayName]
  cases hlookup : config.known.reverse.lookup code with
  | some name =>
      obtain ⟨before, after, hknown, hlast⟩ := lookup_reverse_eq_some_iff.mp hlookup
      exact .known name before after hknown hlast
  | none =>
      refine .unknown fun pair hpair hcode => ?_
      have hpassed := List.lookup_eq_none_iff.mp hlookup pair (List.mem_reverse.mpr hpair)
      exact absurd hcode.symm (bne_iff_ne.mp hpassed)

/-! ### Entries -/

theorem entries_sublist (registrations : List Registration) :
    (ofList registrations).1.entries.Sublist registrations := by
  rw [ofList_eq_foldl_add]
  induction registrations using List.reverseRecOn with
  | nil => exact List.Sublist.refl _
  | append_singleton before registration ih =>
      rw [List.foldl_append, List.foldl_cons, List.foldl_nil, add]
      split
      · exact ih.trans (List.sublist_append_left _ _)
      · exact ih.append (List.Sublist.refl _)

theorem paths_sublist (config : Config) (disk : Disk) (directory : String) :
    ((discover config disk directory).1.entries.map Registration.path).Sublist
      (catalogPaths config disk directory) := by
  rw [discover]
  split
  · refine ((entries_sublist _).map _).trans ?_
    rw [List.filterMap_map, List.map_filterMap]
    have hkept : (fun path => (registration? config disk path).1.map Registration.path) =
        Option.guard fun path => (declaredCode disk path).1.isSome := by
      funext path
      rw [registration?_fst]
      cases hcode : (declaredCode disk path).1 <;> simp [Option.guard, hcode]
    simp only [Function.comp_def, hkept, List.filterMap_eq_filter]
    exact List.filter_sublist
  · exact List.nil_sublist _

theorem mem_entries_iff {registry : Registry} {registration : Registration} :
    registration ∈ registry.entries ↔ registry.find? registration.code = some registration := by
  constructor
  · intro h
    obtain ⟨other, hother, hlocale⟩ := mem_locales_iff.mp (List.mem_map_of_mem h)
    have hsame : other = registration := List.inj_on_of_nodup_map registry.nodup
      (List.mem_of_find?_eq_some hother) h (congrArg Locale.code hlocale)
    exact hsame ▸ hother
  · exact List.mem_of_find?_eq_some

theorem mem_entries_discover {registration : Registration} :
    registration ∈ (discover config disk directory).1.entries ↔
      ∃ name, FirstToDeclare config disk directory name registration.code ∧
        registration = ⟨⟨registration.code, displayName config registration.code⟩,
          directory ++ "/" ++ name⟩ := by
  rw [mem_entries_iff, find?_discover, Option.map_eq_some_iff]
  simp only [firstFile?_eq_some_iff]
  constructor
  · rintro ⟨path, ⟨name, rfl, hfirst⟩, heq⟩
    exact ⟨name, hfirst, heq.symm⟩
  · rintro ⟨name, hfirst, heq⟩
    exact ⟨_, ⟨name, rfl, hfirst⟩, heq.symm⟩

theorem Declares.code_unique {code' : String} (h : Declares config disk directory name code)
    (h' : Declares config disk directory name code') : code = code' := by
  obtain ⟨bytes, language, hread, hlanguage, hnormal⟩ := h.declared
  obtain ⟨bytes', language', hread', hlanguage', hnormal'⟩ := h'.declared
  cases hread.symm.trans hread'
  cases hlanguage.symm.trans hlanguage'
  exact Except.ok.inj (hnormal.symm.trans hnormal')

/-- The registrations are in the order of the names of their files. -/
theorem pairwise_entries (config : Config) (disk : Disk) (directory : String) :
    (discover config disk directory).1.entries.Pairwise fun a b => a.path < b.path := by
  have hsorted := List.pairwise_map.mp
    ((pairwise_catalogPaths config disk directory).sublist (paths_sublist config disk directory))
  have hdistinct := List.pairwise_map.mp (discover config disk directory).1.nodup
  refine (hsorted.and hdistinct).imp_of_mem ?_
  rintro a b ha hb ⟨hle, hcode⟩
  refine lt_of_le_of_ne hle fun hpath => hcode ?_
  obtain ⟨name, hname, ha⟩ := mem_entries_discover.mp ha
  obtain ⟨name', hname', hb⟩ := mem_entries_discover.mp hb
  rw [ha, hb] at hpath
  obtain rfl := (strictMono_inDirectory directory).injective hpath
  exact hname.declares.code_unique hname'.declares

theorem eq_of_entries {registry other : Registry} (h : registry.entries = other.entries) :
    registry = other := by
  cases registry
  cases other
  cases h
  rfl

/-- What is discovered depends on nothing but which files declare which codes. -/
theorem discover_congr (h : ∀ name code, Declares config other directory name code ↔
      Declares config disk directory name code) :
    (discover config other directory).1 = (discover config disk directory).1 := by
  have hfirst (name code : String) : FirstToDeclare config other directory name code ↔
      FirstToDeclare config disk directory name code := by
    constructor
    · rintro ⟨hdeclares, hleast⟩
      exact ⟨(h name code).mp hdeclares, fun file hfile => hleast file ((h file code).mpr hfile)⟩
    · rintro ⟨hdeclares, hleast⟩
      exact ⟨(h name code).mpr hdeclares, fun file hfile => hleast file ((h file code).mp hfile)⟩
  have : Std.Irrefl fun a b : Registration => a.path < b.path := ⟨fun a => lt_irrefl a.path⟩
  have : Std.Antisymm fun a b : Registration => a.path < b.path :=
    ⟨fun a b hab hba => absurd hab hba.asymm⟩
  refine eq_of_entries ((pairwise_entries config other directory).eq_of_mem_iff
    (pairwise_entries config disk directory) fun registration => ?_)
  simp only [mem_entries_discover, hfirst]

/-! ### Files that declare nothing -/

/-- No root element of a catalog can be made out in a file. -/
def Rootless (bytes : ByteArray) : Prop :=
  match Xml.Document.parse? bytes with
  | some document => Catalog.rootOf? document = none
  | none => Xml.Recovery.find? "TS" bytes = none

/-- What reading a file that declares no locale comes to. -/
inductive Silent : Except ReadError ByteArray → Prop where
  | unreadable (cause : ReadError) : Silent (.error cause)
  | rootless {bytes : ByteArray} (h : Rootless bytes) : Silent (.ok bytes)
  | undeclared {bytes : ByteArray} (h : Catalog.declaredLanguage? bytes = none) :
      Silent (.ok bytes)
  | invalid {bytes : ByteArray} {language : String} {cause : CodeError}
      (hlanguage : Catalog.declaredLanguage? bytes = some language)
      (hnormal : normalizeCode language = .error cause) : Silent (.ok bytes)

theorem Rootless.declaredLanguage? {bytes : ByteArray} (h : Rootless bytes) :
    Catalog.declaredLanguage? bytes = none := by
  rw [Rootless] at h
  rw [Catalog.declaredLanguage?]
  cases hparse : Xml.Document.parse? bytes with
  | some document =>
      rw [hparse] at h
      simp only [h, Option.bind_none, Option.filter_none]
  | none =>
      rw [hparse] at h
      simp only [h, Option.bind_none, Option.filter_none]

theorem Silent.not_declares (h : Silent (disk.read (directory ++ "/" ++ name))) (code : String) :
    ¬Declares config disk directory name code := by
  intro hdeclares
  obtain ⟨bytes, language, hread, hlanguage, hnormal⟩ := hdeclares.declared
  rw [hread] at h
  cases h with
  | rootless hrootless => cases hrootless.declaredLanguage?.symm.trans hlanguage
  | undeclared hnone => cases hnone.symm.trans hlanguage
  | invalid hlanguage' herror =>
      cases hlanguage'.symm.trans hlanguage
      cases herror.symm.trans hnormal

/-- A directory of two disks has the same catalog files, but for files that declare no locale. -/
structure SameButSilent (config : Config) (disk other : Disk) (directory : String) : Prop where
  exists? : other.exists? directory = disk.exists? directory
  read : ∀ name, CatalogName config name →
    other.read (directory ++ "/" ++ name) = disk.read (directory ++ "/" ++ name) ∨
      (Silent (other.read (directory ++ "/" ++ name)) ∧
        Silent (disk.read (directory ++ "/" ++ name)))

theorem SameButSilent.symm (h : SameButSilent config disk other directory) :
    SameButSilent config other disk directory :=
  ⟨h.exists?.symm, fun name hnamed => (h.read name hnamed).imp Eq.symm And.symm⟩

theorem SameButSilent.declares (h : SameButSilent config disk other directory)
    (hdeclares : Declares config disk directory name code) :
    Declares config other directory name code := by
  refine ⟨h.exists?.trans hdeclares.exists?, hdeclares.named, ?_⟩
  rcases h.read name hdeclares.named with hread | ⟨-, hsilent⟩
  · rw [hread]
    exact hdeclares.declared
  · exact absurd hdeclares (hsilent.not_declares code)

/-- A file that declares no locale takes the place of one that does not, or of none. -/
theorem SameButSilent.put {entry : Entry} (hpath : path ≠ directory)
    (hbefore : Silent (disk.read path)) (hafter : Silent (Disk.read (disk.put path entry) path)) :
    SameButSilent config disk (disk.put path entry) directory where
  exists? := by
    rw [Disk.exists?, Disk.exists?, Table.contains, Table.contains, Table.get?_put,
      if_neg hpath.symm]
  read name _ := by
    by_cases hname : directory ++ "/" ++ name = path
    · rw [hname]
      exact Or.inr ⟨hafter, hbefore⟩
    · left
      rw [Disk.read, Disk.read, Table.get?_put, if_neg hname]

/-! ### The inventory -/

/-- The ways to look at a registry agree. -/
structure Coherent (registry : Registry) : Prop where
  locales : registry.locales.map Locale.code = registry.codes
  size : registry.size = registry.codes.length
  contains : ∀ code, registry.contains code = true ↔ code ∈ registry.codes
  locale? : ∀ code locale,
    registry.locale? code = some locale ↔ locale ∈ registry.locales ∧ locale.code = code
  path? : ∀ code, (registry.path? code).isSome = registry.contains code

theorem coherent (registry : Registry) : Coherent registry where
  locales := List.map_map
  size := (List.length_map _).symm
  contains code := contains_iff
  locale? code locale := by
    constructor
    · intro h
      exact ⟨mem_locales_of_locale? h, code_of_locale? h⟩
    · rintro ⟨hlocale, rfl⟩
      exact locale?_of_mem hlocale
  path? code := Option.isSome_map

/-- The registry of a directory: what files declare, each code once, in the order of the first files
that declare them. -/
structure Inventory (config : Config) (disk : Disk) (directory : String) (registry : Registry) :
    Prop where
  codes : ∀ code, code ∈ registry.codes ↔ ∃ name, Declares config disk directory name code
  once : registry.codes.Nodup
  ordered : registry.codes.Pairwise fun code later => ∃ name name',
    FirstToDeclare config disk directory name code ∧
      FirstToDeclare config disk directory name' later ∧ name < name'
  path? : ∀ code path, registry.path? code = some path ↔
    ∃ name, path = directory ++ "/" ++ name ∧ FirstToDeclare config disk directory name code
  displays : ∀ locale ∈ registry.locales, Displays config locale.code locale.displayName
  coherent : Coherent registry

theorem path?_discover (config : Config) (disk : Disk) (directory code : String) :
    (discover config disk directory).1.path? code = firstFile? config disk directory code := by
  rw [path?, find?_discover, Option.map_map]
  exact Option.map_id'

theorem pairwise_codes (config : Config) (disk : Disk) (directory : String) :
    (discover config disk directory).1.codes.Pairwise fun code later => ∃ name name',
      FirstToDeclare config disk directory name code ∧
        FirstToDeclare config disk directory name' later ∧ name < name' := by
  refine List.pairwise_map.mpr ((pairwise_entries config disk directory).imp_of_mem ?_)
  intro a b ha hb hlt
  obtain ⟨name, hname, ha⟩ := mem_entries_discover.mp ha
  obtain ⟨name', hname', hb⟩ := mem_entries_discover.mp hb
  rw [ha, hb] at hlt
  exact ⟨name, name', hname, hname', (strictMono_inDirectory directory).lt_iff_lt.mp hlt⟩

theorem inventory (config : Config) (disk : Disk) (directory : String) :
    Inventory config disk directory (discover config disk directory).1 where
  codes code := by
    rw [← contains_iff, ← (coherent _).path?, path?_discover, isSome_firstFile?_iff]
  once := (discover config disk directory).1.nodup
  ordered := pairwise_codes config disk directory
  path? code path := by
    rw [path?_discover, firstFile?_eq_some_iff]
  displays locale hlocale := by
    obtain ⟨registration, hregistration, rfl⟩ := List.mem_map.mp hlocale
    obtain ⟨name, -, heq⟩ := mem_entries_discover.mp hregistration
    rw [heq]
    exact displays_displayName config registration.code
  coherent := Registry.coherent _

/-- A discovered registry has every code that files of the directory declare, once, at the first
file that declares it. Files that declare no locale may come, change and go without a trace. -/
theorem discover_inventory (config : Config) (disk : Disk) (directory : String) :
    Inventory config disk directory (discover config disk directory).1 ∧
      ∀ other, SameButSilent config disk other directory →
        (discover config other directory).1 = (discover config disk directory).1 := by
  refine ⟨inventory config disk directory, fun other hsame => ?_⟩
  refine discover_congr fun name code => ?_
  exact ⟨hsame.symm.declares, hsame.declares⟩

/-- The directory of two catalogs that do not load, with a file in front that declares nothing. -/
def paddedDirectory : Disk :=
  unfinishedDirectory.put "lang/veil_aa.ts" (.file "<TS/>".toUTF8)

theorem discover_inventory_padded :
    SameButSilent .standard unfinishedDirectory paddedDirectory "lang" ∧
      (discover .standard paddedDirectory "lang").1.codes = ["de_DE", "ru"] := by
  have hmissing : unfinishedDirectory.read "lang/veil_aa.ts" = .error .missing := rfl
  have hread : paddedDirectory.read "lang/veil_aa.ts" = .ok "<TS/>".toUTF8 := rfl
  have hundeclared : Catalog.declaredLanguage? "<TS/>".toUTF8 = none :=
    Option.isNone_iff_eq_none.mp (by decide +kernel)
  have hsame : SameButSilent .standard unfinishedDirectory paddedDirectory "lang" :=
    .put (by decide) (hmissing ▸ .unreadable _) (hread ▸ .undeclared hundeclared)
  refine ⟨hsame, ?_⟩
  rw [(discover_inventory .standard unfinishedDirectory "lang").2 _ hsame]
  exact congrArg (List.map Registration.code) entries_unfinished

end Registry
end Polyglot
