import Polyglot.Check
import Polyglot.Proofs.Serving

/-!
What a passed check vouches for. For each code only the first file of the directory counts that
declares it; such a file is read and compared. A file that declares no code, or one that is taken,
is passed over with a warning. The verdict does not depend on what is in it, so it may as well be
broken.
-/

namespace Polyglot

/-! ### Files that count -/

namespace Registry

/-- A file is passed over when it declares no code, or another file counts for the code. -/
def PassedOver (config : Config) (disk : Disk) (directory path : String) : Prop :=
  ∀ code, (declaredCode disk path).1 = some code →
    firstFile? config disk directory code ≠ some path

/-- Two disks have the same files that count, with the same bytes in them. -/
structure SameFiles (config : Config) (directory : String) (disk other : Disk) : Prop where
  file : ∀ code, firstFile? config other directory code = firstFile? config disk directory code
  bytes : ∀ code path, firstFile? config disk directory code = some path →
    other.read path = disk.read path

theorem SameFiles.symm {config : Config} {directory : String} {disk other : Disk}
    (h : SameFiles config directory disk other) : SameFiles config directory other disk where
  file code := (h.file code).symm
  bytes code path hpath := (h.bytes code path ((h.file code).symm.trans hpath)).symm

theorem declaredCode_congr {disk other : Disk} {path : String}
    (h : other.read path = disk.read path) : declaredCode other path = declaredCode disk path := by
  rw [declaredCode, h, declaredCode]

/-- Files that declare no code may be put anywhere in a directory. -/
theorem sameFiles_of_silent {config : Config} {directory : String} {disk other : Disk}
    {keep : String → Bool} (hexists : other.exists? directory = disk.exists? directory)
    (hpaths : catalogPaths config disk directory =
      (catalogPaths config other directory).filter keep)
    (hread : ∀ path ∈ catalogPaths config disk directory, other.read path = disk.read path)
    (hsilent : ∀ path ∈ catalogPaths config other directory, keep path = false →
      (declaredCode other path).1 = none) : SameFiles config directory disk other := by
  constructor
  · intro code
    have hdeclared (path : String) (hpath : path ∈ catalogPaths config other directory) :
        ((declaredCode other path).1 == some code) =
          (keep path && (declaredCode disk path).1 == some code) := by
      cases hkeep : keep path with
      | false => rw [hsilent path hpath hkeep, Bool.false_and, Option.none_beq_some]
      | true =>
          have hkept : path ∈ catalogPaths config disk directory :=
            hpaths ▸ List.mem_filter.mpr ⟨hpath, hkeep⟩
          rw [declaredCode_congr (hread path hkept), Bool.true_and]
    rw [firstFile?, firstFile?, hexists, hpaths, List.find?_filter, ← List.head?_filter,
      List.filter_congr hdeclared, List.head?_filter]
    simp only [Bool.decide_and, Bool.decide_eq_true]
  · intro code path hpath
    exact hread path (firstFile?_eq_some hpath).1

/-! ### Warnings -/

def skipRecord (path : String) : Record :=
  ⟨.warning, .registry, s!"Skipping catalog {path}: no locale declared"⟩

/-- There is a warning that a file has been passed over. -/
def Warned (config : Config) (journal : Journal) (path : String) : Prop :=
  skipRecord path ∈ journal ∨
    ∃ code, duplicateRecord ⟨⟨code, displayName config code⟩, path⟩ ∈ journal

theorem Warned.mono {config : Config} {journal later : Journal} {path : String}
    (h : Warned config journal path) (hmore : journal <+: later) : Warned config later path :=
  h.imp (hmore.subset ·) fun ⟨code, hmem⟩ => ⟨code, hmore.subset hmem⟩

theorem ofList_concat (registrations : List Registration) (registration : Registration) :
    ofList (registrations ++ [registration]) =
      if (ofList registrations).1.contains registration.code then
        ((ofList registrations).1,
          (ofList registrations).2 ++ [duplicateRecord registration])
      else ((ofList registrations).1.add registration, (ofList registrations).2) := by
  rw [ofList, List.foldl_append]
  rfl

theorem journal_ofList_append (before after : List Registration) :
    (ofList before).2 <+: (ofList (before ++ after)).2 := by
  induction after using List.reverseRecOn with
  | nil => rw [List.append_nil]
  | append_singleton after registration ih =>
      rw [← List.append_assoc, ofList_concat]
      split
      · exact ih.trans (List.prefix_append _ _)
      · exact ih

/-- A registration whose code is taken is reported. -/
theorem duplicateRecord_mem {before after : List Registration} {other registration : Registration}
    (hother : other ∈ before) (hcode : other.code = registration.code) :
    duplicateRecord registration ∈ (ofList (before ++ registration :: after)).2 := by
  have hcontains : (ofList before).1.contains registration.code = true := by
    rw [contains, find?_ofList, List.find?_isSome]
    exact ⟨other, hother, beq_iff_eq.mpr hcode⟩
  have hmore := journal_ofList_append (before ++ [registration]) after
  rw [ofList_concat, if_pos hcontains, List.append_assoc, List.singleton_append] at hmore
  exact hmore.subset (List.mem_append_right _ (List.mem_singleton_self _))

theorem skipRecord_mem {disk : Disk} {path : String} (config : Config)
    (h : (declaredCode disk path).1 = none) :
    skipRecord path ∈ (registration? config disk path).2 := by
  rw [registration?]
  split
  · rename_i hdeclared
    rw [hdeclared] at h
    cases h
  · exact List.mem_append_right _ (List.mem_singleton_self _)

/-- A file that is passed over although it declares a code stands behind the one that counts. -/
theorem catalogPaths_of_passedOver {config : Config} {disk : Disk} {directory path code : String}
    (hexists : disk.exists? directory = true)
    (hpath : path ∈ catalogPaths config disk directory)
    (hcode : (declaredCode disk path).1 = some code)
    (h : PassedOver config disk directory path) :
    ∃ before first after, catalogPaths config disk directory = before ++ path :: after ∧
      first ∈ before ∧ (declaredCode disk first).1 = some code := by
  have hsome : (firstFile? config disk directory code).isSome = true := by
    rw [firstFile?, if_pos hexists, List.find?_isSome]
    exact ⟨path, hpath, beq_iff_eq.mpr hcode⟩
  obtain ⟨first, hfirst⟩ := Option.isSome_iff_exists.mp hsome
  have hne : path ≠ first := by
    rintro rfl
    exact h code hcode hfirst
  obtain ⟨-, hdeclared⟩ := firstFile?_eq_some hfirst
  rw [firstFile?, if_pos hexists, List.find?_eq_some_iff_append] at hfirst
  obtain ⟨-, before, after, hsplit, hbefore⟩ := hfirst
  have hafter : path ∈ after := by
    rw [hsplit] at hpath
    rcases List.mem_append.mp hpath with hmem | hmem
    · have hother := hbefore path hmem
      rw [hcode] at hother
      simp at hother
    · exact (List.mem_cons.mp hmem).resolve_left hne
  obtain ⟨between, rest, rfl⟩ := List.append_of_mem hafter
  refine ⟨before ++ first :: between, first, rest, ?_, ?_, hdeclared⟩
  · rw [hsplit, List.append_assoc, List.cons_append]
  · exact List.mem_append_right _ List.mem_cons_self

/-- A file that is passed over is reported. -/
theorem warned_of_passedOver {config : Config} {disk : Disk} {directory path : String}
    (hexists : disk.exists? directory = true)
    (hpath : path ∈ catalogPaths config disk directory)
    (h : PassedOver config disk directory path) :
    Warned config (discover config disk directory).2 path := by
  simp only [discover, hexists, if_true]
  cases hcode : (declaredCode disk path).1 with
  | none =>
      have hskipped := skipRecord_mem config hcode
      exact Or.inl (List.mem_append_left _
        (List.mem_flatMap.mpr ⟨_, List.mem_map_of_mem hpath, hskipped⟩))
  | some code =>
      obtain ⟨before, first, after, hsplit, hfirst, hdeclared⟩ :=
        catalogPaths_of_passedOver hexists hpath hcode h
      have hregistration (file : String) (hfile : (declaredCode disk file).1 = some code) :
          (registration? config disk file).1 = some ⟨⟨code, displayName config code⟩, file⟩ := by
        rw [registration?_fst, hfile, Option.map_some]
      have hother : ⟨⟨code, displayName config code⟩, first⟩ ∈
          (before.map (registration? config disk)).filterMap (·.1) :=
        List.mem_filterMap.mpr
          ⟨_, List.mem_map_of_mem hfirst, hregistration first hdeclared⟩
      refine Or.inr ⟨code, List.mem_append_right _ ?_⟩
      rw [hsplit, List.map_append, List.map_cons, List.filterMap_append, List.filterMap_cons,
        hregistration path hcode]
      exact duplicateRecord_mem hother rfl

end Registry

/-! ### Completeness of what counts -/

namespace Library

open Registry

/-- Whether a library is complete is a matter of what it finds. -/
theorem Complete.congr {source other : Library} (h : source.Complete)
    (hconfig : other.store.config = source.store.config)
    (hfind : ∀ code, other.store.registry.find? code = source.store.registry.find? code)
    (hfound : ∀ code, other.found code = source.found code) : other.Complete := by
  have hlocales (locale : Locale) (hlocale : locale ∈ other.store.registry.locales) :
      locale ∈ source.store.registry.locales := by
    rwa [mem_locales_iff, hfind, ← mem_locales_iff] at hlocale
  refine ⟨?_, fun locale hlocale => ?_, fun locale hlocale catalog base hcatalog hbase => ?_,
    fun locale hlocale catalog hcatalog => ?_⟩
  · rw [contains, hfind, hconfig]
    exact h.base
  · rw [hfound]
    exact h.loads locale (hlocales locale hlocale)
  · rw [hfound] at hcatalog
    rw [hfound, hconfig] at hbase
    exact h.covers locale (hlocales locale hlocale) catalog base hcatalog hbase
  · rw [hfound] at hcatalog
    exact h.translated locale (hlocales locale hlocale) catalog hcatalog

section Directory

variable {config : Config} {directory : String} {disk other : Disk}

theorem Complete.of_sameFiles (hsame : SameFiles config directory disk other)
    (h : (ofDirectory config disk directory).Complete) :
    (ofDirectory config other directory).Complete := by
  have hfind (code : String) : (discover config other directory).1.find? code =
      (discover config disk directory).1.find? code := by
    rw [find?_discover, find?_discover, hsame.file]
  refine h.congr rfl hfind fun code => ?_
  simp only [found, Store.fetch, ofDirectory, hfind]
  rw [find?_discover]
  cases hfile : firstFile? config disk directory code with
  | none => rfl
  | some path => simp only [Option.map_some, hsame.bytes code path hfile]

theorem Auditable.of_sameFiles (hsame : SameFiles config directory disk other)
    (h : (ofDirectory config disk directory).Auditable) :
    (ofDirectory config other directory).Auditable := by
  intro code digits hoverlong
  obtain ⟨registration, bytes, hfind, hread, hlong⟩ := hoverlong
  rw [ofDirectory, find?_discover, hsame.file] at hfind
  obtain ⟨path, hpath, rfl⟩ := Option.map_eq_some_iff.mp hfind
  have hfind' : (discover config disk directory).1.find? code =
      some ⟨⟨code, displayName config code⟩, path⟩ := by
    rw [find?_discover, hpath, Option.map_some]
  exact h code digits ⟨_, bytes, hfind', (hsame.bytes code path hpath).symm.trans hread, hlong⟩

theorem Complete.directory_exists (h : (ofDirectory config disk directory).Complete) :
    disk.exists? directory = true := by
  by_contra hmissing
  have hbase := h.base
  rw [ofDirectory, contains, find?_discover, firstFile?, if_neg hmissing] at hbase
  cases hbase

/-- In a complete directory a file is passed over, or it is a catalog of the locale that it
declares. -/
theorem Complete.accepts (h : (ofDirectory config disk directory).Complete) (path : String) :
    PassedOver config disk directory path ∨
      ∃ bytes locale catalog, disk.read path = .ok bytes ∧
        (Catalog.ofBytes config locale bytes).outcome = .ok catalog := by
  by_cases hpassed : PassedOver config disk directory path
  · exact Or.inl hpassed
  · obtain ⟨code, hcode⟩ := not_forall.mp hpassed
    obtain ⟨-, hfirst⟩ := Classical.not_imp.mp hcode
    have hfind : (ofDirectory config disk directory).store.registry.find? code =
        some ⟨⟨code, displayName config code⟩, path⟩ := by
      rw [ofDirectory, find?_discover, not_not.mp hfirst, Option.map_some]
    obtain ⟨catalog, hfound⟩ := h.loads ⟨code, displayName config code⟩
      (mem_locales_iff.mpr ⟨_, hfind, rfl⟩)
    obtain ⟨registration, bytes, hregistration, hread, hbytes⟩ := Store.file_of_fetch hfound
    obtain rfl := Option.some.inj (hregistration.symm.trans hfind)
    exact Or.inr ⟨bytes, _, catalog, hread, hbytes⟩

end Directory

theorem load_journal (library : Library) (code : String) :
    library.journal <+: (library.load code).2.journal := by
  cases hcached : library.store.cached.get? code with
  | some catalog =>
      rw [load_of_cached hcached]
      exact List.prefix_append _ _
  | none =>
      cases hfetch : (library.store.fetch library.disk code).outcome with
      | error error =>
          rw [load_of_error hcached hfetch]
          exact List.prefix_append _ _
      | ok catalog =>
          rw [load_of_ok hcached hfetch, List.append_assoc]
          exact List.prefix_append _ _

end Library

/-! ### Audits -/

namespace Audit

theorem reportOn_journal (base : Option Catalog) (library : Library) (locale : Locale) :
    library.journal <+: (reportOn base library locale).2.journal := by
  have hload := library.load_journal locale.code
  rw [reportOn]
  split <;> rename_i heq <;> rw [heq] at hload <;> exact hload

theorem reportOnAll_journal (base : Option Catalog) (library : Library) (locales : List Locale) :
    library.journal <+: (reportOnAll base library locales).2.journal := by
  induction locales generalizing library with
  | nil => exact List.prefix_rfl
  | cons locale rest ih =>
      have hone := reportOn_journal base library locale
      rw [reportOnAll]
      split <;> rename_i heq <;> rw [heq] at hone
      · exact hone
      · rename_i report after
        have hrest := hone.trans (ih after)
        split <;> rename_i hall <;> rw [hall] at hrest <;> exact hrest

theorem loadBase_journal (library : Library) (directory : String) :
    library.journal <+: (loadBase library directory).2.journal := by
  have hload := library.load_journal library.store.config.fallback
  simp only [loadBase]
  split
  · split <;> rename_i heq <;> rw [heq] at hload
    · exact hload
    · exact hload.trans (List.prefix_append _ _)
    · exact hload
  · exact List.prefix_append _ _

/-- What an audit reports begins with what has been reported of the files. -/
theorem run_journal (config : Config) (disk : Disk) (directory : String) :
    (Registry.discover config disk directory).2 <+: (run config disk directory).2 := by
  have hbase := loadBase_journal (Library.ofDirectory config disk directory) directory
  simp only [run]
  simp only [Library.ofDirectory] at hbase
  split <;> rename_i hloaded <;> rw [hloaded] at hbase
  · exact hbase
  · rename_i base library
    have hall := hbase.trans
      (reportOnAll_journal base library (Registry.discover config disk directory).1.locales)
    split <;> rename_i hreported <;> rw [hreported] at hall <;> exact hall

end Audit

/-! ### Checks -/

namespace Check

open Registry

/-- The directory that is checked. -/
def directory (options : Options) (shipped : String) : String :=
  normalizePath (options.directory.getD shipped)

theorem run_of_audit {options : Options} {disk : Disk} {shipped : String} {audit : Audit}
    (h : (Audit.run .standard disk (directory options shipped)).1 = .ok audit) :
    ∃ report, run options disk shipped = .ok report ∧
      report.exit = if audit.ok then 0 else 1 := by
  rcases haudit : Audit.run .standard disk (directory options shipped) with ⟨outcome, journal⟩
  rw [haudit] at h
  subst h
  rw [directory] at haudit
  simp only [run, haudit]
  exact ⟨_, rfl, rfl⟩

/-- A check that comes to an end has made an audit. -/
theorem audit_of_run {options : Options} {disk : Disk} {shipped : String} {report : Report}
    (h : run options disk shipped = .ok report) :
    ∃ audit, (Audit.run .standard disk (directory options shipped)).1 = .ok audit ∧
      report.exit = if audit.ok then 0 else 1 := by
  cases haudit : (Audit.run .standard disk (directory options shipped)).1 with
  | ok audit =>
      obtain ⟨other, hother, hexit⟩ := run_of_audit haudit
      cases hother.symm.trans h
      exact ⟨audit, rfl, hexit⟩
  | error error =>
      rw [directory] at haudit
      simp only [run, haudit] at h
      cases h

theorem run_isOk_iff (options : Options) (disk : Disk) (shipped : String) :
    (∃ report, run options disk shipped = .ok report) ↔
      (Library.ofDirectory .standard disk (directory options shipped)).Auditable := by
  rw [← Audit.run_isOk_iff _ _ _ Config.isSome_parse?_minVersion]
  constructor
  · intro h
    obtain ⟨report, hreport⟩ := h
    obtain ⟨audit, haudit, -⟩ := audit_of_run hreport
    exact ⟨audit, haudit⟩
  · intro h
    obtain ⟨audit, haudit⟩ := h
    obtain ⟨report, hreport, -⟩ := run_of_audit haudit
    exact ⟨report, hreport⟩

/-- A check succeeds when the directory is complete. -/
theorem exit_eq_zero_iff {options : Options} {disk : Disk} {shipped : String} {report : Report}
    (h : run options disk shipped = .ok report) :
    report.exit = 0 ↔
      (Library.ofDirectory .standard disk (directory options shipped)).Complete := by
  obtain ⟨audit, haudit, hexit⟩ := audit_of_run h
  rw [← Audit.run_iff _ _ _ Config.isSome_parse?_minVersion, haudit, hexit]
  cases hok : audit.ok <;> simp [hok]

/-- What a check vouches for. It comes to an end just when no version is too long, and it succeeds
just when the audit is passed. Then every catalog file is accepted for some locale, unless it is
passed over, of which there is a warning. The verdict is the same on every disk with the same files
that count, whatever is in a file that is passed over. -/
theorem run_vouches (options : Options) (disk : Disk) (shipped : String) :
    ((∃ report, run options disk shipped = .ok report) ↔
      (Library.ofDirectory .standard disk (directory options shipped)).Auditable) ∧
    ∀ report, run options disk shipped = .ok report →
      (∃ audit, (Audit.run .standard disk (directory options shipped)).1 = .ok audit ∧
        report.exit = if audit.ok then 0 else 1) ∧
      (report.exit = 0 → ∀ path ∈ catalogPaths .standard disk (directory options shipped),
        (∃ bytes locale catalog, disk.read path = .ok bytes ∧
          (Catalog.ofBytes .standard locale bytes).outcome = .ok catalog) ∨
        (PassedOver .standard disk (directory options shipped) path ∧
          Warned .standard (Audit.run .standard disk (directory options shipped)).2 path)) ∧
      ∀ other, SameFiles .standard (directory options shipped) disk other →
        ∃ last, run options other shipped = .ok last ∧ last.exit = report.exit := by
  have hends := run_isOk_iff options disk shipped
  refine ⟨hends, fun report hreport => ?_⟩
  obtain ⟨audit, haudit, hexit⟩ := audit_of_run hreport
  refine ⟨⟨audit, haudit, hexit⟩, fun hzero path hpath => ?_, fun other hsame => ?_⟩
  · have hcomplete := (exit_eq_zero_iff hreport).mp hzero
    rcases hcomplete.accepts path with hpassed | haccepted
    · have hwarned := warned_of_passedOver hcomplete.directory_exists hpath hpassed
      exact Or.inr ⟨hpassed, hwarned.mono (Audit.run_journal _ _ _)⟩
    · exact Or.inl haccepted
  · have hauditable := hends.mp ⟨report, hreport⟩
    obtain ⟨last, hlast⟩ :=
      (run_isOk_iff options other shipped).mpr (hauditable.of_sameFiles hsame)
    refine ⟨last, hlast, ?_⟩
    have hsuccess : last.exit = 0 ↔ report.exit = 0 := by
      rw [exit_eq_zero_iff hlast, exit_eq_zero_iff hreport]
      exact ⟨fun h => h.of_sameFiles hsame.symm, fun h => h.of_sameFiles hsame⟩
    obtain ⟨again, -, hagain⟩ := audit_of_run hlast
    rw [hagain, hexit] at hsuccess ⊢
    cases hok : audit.ok <;> cases hok' : again.ok <;> simp [hok, hok'] at hsuccess ⊢

/-! ### A broken catalog that is passed over -/

/-- A catalog that breaks off before it has declared a language. -/
def strayCatalog : ByteArray := "<TS version=\"2.1\"><context>".toUTF8

/-- The directory with two locales, and a third catalog that breaks off. -/
def untidyDirectory : Disk := [
  ("lang", .directory),
  ("lang/veil_en.ts", .file (Catalog.write "en_US" Host.englishSections).toUTF8),
  ("lang/veil_ru.ts", .file (Catalog.write "ru_RU" Host.russianSections).toUTF8),
  ("lang/veil_zh.ts", .file strayCatalog)]

theorem catalogPaths_untidy : catalogPaths .standard untidyDirectory "lang" =
    ["lang/veil_en.ts", "lang/veil_ru.ts", "lang/veil_zh.ts"] := by
  have hnames : untidyDirectory.names "lang" = ["veil_en.ts", "veil_ru.ts", "veil_zh.ts"] :=
    Disk.names_of_sorted (by decide)
  rw [catalogPaths, hnames]
  decide

theorem parse?_stray : Xml.Document.parse? strayCatalog = none :=
  Option.isNone_iff_eq_none.mp (by decide +kernel)

theorem sameFiles_untidy : SameFiles .standard "lang" bilingualDirectory untidyDirectory := by
  have hsilent : Catalog.declaredLanguage? strayCatalog = none := by decide +kernel
  have hread : untidyDirectory.read "lang/veil_zh.ts" = .ok strayCatalog := rfl
  refine @sameFiles_of_silent .standard "lang" bilingualDirectory untidyDirectory
    (· != "lang/veil_zh.ts") rfl ?_ (fun path hpath => ?_) fun path _ hkeep => ?_
  · rw [catalogPaths_bilingual, catalogPaths_untidy]
    decide
  · rw [catalogPaths_bilingual] at hpath
    rcases List.mem_cons.mp hpath with rfl | hpath
    · rfl
    · cases List.mem_singleton.mp hpath
      rfl
  · obtain rfl : path = "lang/veil_zh.ts" := by simpa using hkeep
    simp only [declaredCode, hread, hsilent]

/-- A broken catalog does not keep a check from succeeding, although no locale accepts the file. -/
theorem not_accepted_untidy : ¬∀ options disk shipped report,
    run options disk shipped = .ok report → report.exit = 0 →
    ∀ path ∈ catalogPaths .standard disk (directory options shipped), ∀ bytes,
      disk.read path = .ok bytes → ∃ locale catalog,
        (Catalog.ofBytes .standard locale bytes).outcome = .ok catalog := by
  intro h
  have hlang : directory { directory := some "lang" } "translations" = "lang" := by decide +kernel
  have hcomplete := complete_bilingual.of_sameFiles sameFiles_untidy
  rw [← hlang] at hcomplete
  obtain ⟨report, hreport⟩ :=
    (run_isOk_iff { directory := some "lang" } untidyDirectory "translations").mpr
      hcomplete.auditable
  obtain ⟨locale, catalog, hcatalog⟩ :=
    h _ _ _ report hreport ((exit_eq_zero_iff hreport).mpr hcomplete) "lang/veil_zh.ts"
    (by rw [hlang, catalogPaths_untidy]; decide) _ rfl
  rw [Catalog.ofBytes, parse?_stray] at hcatalog
  cases hcatalog

end Check
end Polyglot
