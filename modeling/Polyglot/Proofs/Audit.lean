import Polyglot.Audit
import Polyglot.Proofs.Discovery
import Polyglot.Proofs.Views

/-!
What an audit is worth. While nothing is written to the disk, a library answers with what the files
hold, whatever has been loaded before. So an audit passes just when every catalog of the directory
loads, has every key of the base catalog and is translated throughout. A schema version that is too
long puts an end to an audit, and nothing else does.
-/

namespace Polyglot

/-! ### Files that stay as they are -/

namespace Library

/-- What the files say of a code, past the cache. -/
def found (library : Library) (code : String) : Except LoadError Catalog :=
  (library.store.fetch library.disk code).outcome

theorem found_of_not_contains {library : Library} {code : String}
    (h : library.store.registry.contains code = false) :
    library.found code = .error (.catalog ⟨.unregistered, code, none, none⟩) := by
  have hfind : library.store.registry.find? code = none := by
    simpa [Registry.contains] using h
  simp only [found, Store.fetch, hfind]

/-- The library works on the same files as the source, and what it has in its cache is what they
hold. -/
structure Current (source library : Library) : Prop where
  registry : library.store.registry = source.store.registry
  config : library.store.config = source.store.config
  disk : library.disk = source.disk
  cached : ∀ code catalog, library.store.cached.get? code = some catalog →
    source.found code = .ok catalog

theorem Current.refl {source : Library} (h : source.store.cached = []) : Current source source where
  registry := rfl
  config := rfl
  disk := rfl
  cached _ _ hget := by rw [h] at hget; cases hget

section Current

variable {source library : Library} (h : Current source library)

include h

theorem Current.found_eq (code : String) : library.found code = source.found code := by
  simp only [found, Store.fetch, h.registry, h.config, h.disk]

theorem Current.load_eq (code : String) : (library.load code).1 = source.found code := by
  rw [← h.found_eq]
  rcases load_cases library code with
    ⟨catalog, hcached, hok, -⟩ | ⟨error, -, hfetch, herror, -⟩ | ⟨catalog, -, hfetch, hok, -⟩
  · rw [hok, h.found_eq, h.cached code catalog hcached]
  · rw [herror, found, hfetch]
  · rw [hok, found, hfetch]

theorem Current.load (code : String) : Current source (library.load code).2 where
  registry := (load_registry library code).trans h.registry
  config := (load_config library code).trans h.config
  disk := (load_disk library code).trans h.disk
  cached other catalog hget := by
    by_cases hother : other = code
    · subst hother
      rw [get?_load_self, h.load_eq] at hget
      cases hfound : source.found other with
      | error error => rw [hfound] at hget; cases hget
      | ok read => rw [hfound] at hget; cases hget; rfl
    · rw [get?_load_of_ne library hother] at hget
      exact h.cached other catalog hget

theorem Current.report (level : Level) (channel : Channel) (text : String) :
    Current source (library.report level channel text) :=
  ⟨h.registry, h.config, h.disk, h.cached⟩

theorem Current.forget (code : Option String) :
    Current source { library with store := library.store.forget code } where
  registry := (Store.forget_registry library.store code).trans h.registry
  config := by
    rw [← h.config]
    cases code <;> rfl
  disk := h.disk
  cached other catalog hget := h.cached other catalog (Store.get?_forget hget)

end Current

/-! ### What an audit is passed for -/

/-- The base catalog is there, and every catalog loads, has every key of the base, and is
translated. -/
structure Complete (source : Library) : Prop where
  base : source.store.registry.contains source.store.config.fallback = true
  loads : ∀ locale ∈ source.store.registry.locales, ∃ catalog,
    source.found locale.code = .ok catalog
  covers : ∀ locale ∈ source.store.registry.locales, ∀ catalog base,
    source.found locale.code = .ok catalog →
    source.found source.store.config.fallback = .ok base →
    ∀ context key, base.contains context key = true → catalog.contains context key = true
  translated : ∀ locale ∈ source.store.registry.locales, ∀ catalog,
    source.found locale.code = .ok catalog → ∀ message ∈ catalog.messages, message.text ≠ ""

theorem Complete.found_base {source : Library} (h : Complete source) :
    ∃ base, source.found source.store.config.fallback = .ok base := by
  obtain ⟨locale, hlocale, hcode⟩ := Registry.exists_locale_of_contains h.base
  exact hcode ▸ h.loads locale hlocale

/-- No registered file declares a version that is too long. -/
def Auditable (source : Library) : Prop :=
  ∀ code digits, ¬source.store.Overlong source.disk code digits

theorem found_of_overlong {source : Library} {code : String} {digits : Nat}
    (h : source.store.Overlong source.disk code digits) :
    source.found code = .error (.version (.oversized digits)) :=
  Store.fetch_of_overlong h

/-- A registered file is that of a locale. -/
theorem exists_locale_of_overlong {source : Library} {code : String} {digits : Nat}
    (h : source.store.Overlong source.disk code digits) :
    ∃ locale ∈ source.store.registry.locales, locale.code = code := by
  obtain ⟨registration, bytes, hfind, -, -⟩ := h
  exact ⟨registration.locale, Registry.mem_locales_of_locale? (Registry.locale?_of_find? hfind),
    Registry.code_of_find? hfind⟩

theorem Complete.auditable {source : Library} (h : Complete source) : source.Auditable := by
  intro code digits hoverlong
  obtain ⟨locale, hlocale, rfl⟩ := exists_locale_of_overlong hoverlong
  obtain ⟨catalog, hcatalog⟩ := h.loads locale hlocale
  cases hcatalog.symm.trans (found_of_overlong hoverlong)

/-- The library over the files of a directory, before anything has been loaded. -/
def ofDirectory (config : Config) (disk : Disk) (directory : String) : Library where
  store := { registry := (Registry.discover config disk directory).1, config }
  disk := disk
  journal := (Registry.discover config disk directory).2

end Library

/-! ### The audit -/

namespace Audit

open Library

/-- The report on a catalog is in order when the catalog has every key of the base and is translated
throughout. -/
theorem ok_compare_iff {base catalog : Catalog} (hbase : base.Valid) (hcatalog : catalog.Valid) :
    (compare (some base) catalog).ok = true ↔
      (∀ context key, base.contains context key = true → catalog.contains context key = true) ∧
        ∀ message ∈ catalog.messages, message.text ≠ "" := by
  have hmissing : (compare (some base) catalog).missing = [] ↔ ∀ context key,
      base.contains context key = true → catalog.contains context key = true := by
    simp only [compare, Option.elim_some, List.filter_eq_nil_iff, Prod.forall,
      hbase.mem_keys_iff_contains, Bool.not_eq_true, Bool.not_eq_false', List.contains_iff_mem,
      hcatalog.mem_keys_iff_contains]
  rw [← hmissing, ← Catalog.untranslated_eq_nil_iff]
  simp only [LocaleReport.ok, Bool.and_eq_true, List.isEmpty_iff]
  exact ⟨fun h => ⟨h.1.2, h.2⟩, fun h => ⟨⟨rfl, h.1⟩, h.2⟩⟩

/-- The catalog of a locale is found and in order. -/
def Passes (source : Library) (base : Option Catalog) (locale : Locale) : Prop :=
  ∃ catalog, source.found locale.code = .ok catalog ∧ (compare base catalog).ok = true

/-- What an audit says of a locale: its findings for the catalog that the files hold, or the error
that keeps the catalog from being loaded. -/
inductive Reported (source : Library) (base : Option Catalog) (locale : Locale) :
    LocaleReport → Prop where
  | found {catalog : Catalog} (h : source.found locale.code = .ok catalog) :
      Reported source base locale (compare base catalog)
  | failed {cause : CatalogError} (h : source.found locale.code = .error (.catalog cause)) :
      Reported source base locale { code := locale.code, error := some cause.message }

theorem Reported.ok_iff {source : Library} {base : Option Catalog} {locale : Locale}
    {report : LocaleReport} (h : Reported source base locale report) :
    report.ok = true ↔ Passes source base locale := by
  cases h with
  | found hfound =>
      constructor
      · intro hok
        exact ⟨_, hfound, hok⟩
      · rintro ⟨other, hother, hok⟩
        cases hfound.symm.trans hother
        exact hok
  | failed hfound =>
      constructor
      · intro hok
        cases hok
      · rintro ⟨catalog, hcatalog, -⟩
        cases hfound.symm.trans hcatalog

theorem all_ok_iff {source : Library} {base : Option Catalog} {locales : List Locale}
    {reports : List LocaleReport} (h : List.Forall₂ (Reported source base) locales reports) :
    reports.all LocaleReport.ok = true ↔ ∀ locale ∈ locales, Passes source base locale := by
  induction h with
  | nil => simp
  | cons hreport _ ih =>
      rw [List.all_cons, Bool.and_eq_true, hreport.ok_iff, ih, List.forall_mem_cons]

section Current

variable {source library : Library} (h : Current source library)
  (hminimum : (Version.parse? source.store.config.minVersion).isSome = true)

include h hminimum

/-- A locale is reported on unless its file declares a version that is too long. -/
theorem reportOn_current (base : Option Catalog) (locale : Locale) :
    (∃ report, (reportOn base library locale).1 = .ok report ∧
      Current source (reportOn base library locale).2 ∧ Reported source base locale report) ∨
    ∃ digits, (reportOn base library locale).1 = .error (.version (.oversized digits)) ∧
      source.store.Overlong source.disk locale.code digits := by
  have hload := h.load_eq locale.code
  have hcurrent := h.load locale.code
  rcases hresult : library.load locale.code with ⟨outcome, after⟩
  rw [hresult] at hload hcurrent
  subst hload
  cases hfound : source.found locale.code with
  | ok catalog =>
      rw [hfound] at hresult
      refine Or.inl ⟨compare base catalog, by simp only [reportOn, hresult], ?_, .found hfound⟩
      simpa only [reportOn, hresult] using hcurrent
  | error error =>
      rw [hfound] at hresult
      rcases Store.fetch_error hminimum hfound with ⟨cause, rfl⟩ | ⟨digits, rfl, hoverlong⟩
      · refine Or.inl ⟨_, by simp only [reportOn, hresult], ?_, .failed hfound⟩
        simpa only [reportOn, hresult] using hcurrent
      · exact Or.inr ⟨digits, by simp only [reportOn, hresult], hoverlong⟩

/-- All locales are reported on, up to the first whose file declares a version that is too long. -/
theorem reportOnAll_current (base : Option Catalog) (locales : List Locale) :
    (∃ reports, (reportOnAll base library locales).1 = .ok reports ∧
      List.Forall₂ (Reported source base) locales reports) ∨
    ∃ code digits, (reportOnAll base library locales).1 = .error (.version (.oversized digits)) ∧
      source.store.Overlong source.disk code digits := by
  -- Every report changes the library, but leaves it current.
  induction locales generalizing library with
  | nil => exact Or.inl ⟨[], rfl, .nil⟩
  | cons locale rest ih =>
      have hstep := reportOn_current h hminimum base locale
      rcases hone : reportOn base library locale with ⟨outcome, after⟩
      rw [hone] at hstep
      rcases hstep with ⟨report, rfl, hcurrent, hreported⟩ | ⟨digits, rfl, hoverlong⟩
      · have hsteps := ih hcurrent
        rcases hrest : reportOnAll base after rest with ⟨outcome, last⟩
        rw [hrest] at hsteps
        rcases hsteps with ⟨reports, rfl, hall⟩ | ⟨code, digits, rfl, hoverlong⟩
        · exact Or.inl
            ⟨report :: reports, by simp only [reportOnAll, hone, hrest], .cons hreported hall⟩
        · exact Or.inr ⟨code, digits, by simp only [reportOnAll, hone, hrest], hoverlong⟩
      · exact Or.inr ⟨locale.code, digits, by simp only [reportOnAll, hone], hoverlong⟩

theorem loadBase_current (directory : String) :
    ((loadBase library directory).1 =
        .ok (source.found source.store.config.fallback).toOption ∧
      Current source (loadBase library directory).2) ∨
    ∃ digits, (loadBase library directory).1 = .error (.version (.oversized digits)) ∧
      source.store.Overlong source.disk source.store.config.fallback digits := by
  have hload := h.load_eq source.store.config.fallback
  have hcurrent := h.load source.store.config.fallback
  rcases hresult : library.load source.store.config.fallback with ⟨outcome, after⟩
  rw [hresult] at hload hcurrent
  subst hload
  simp only [loadBase, h.registry, h.config, hresult]
  cases hcontains : source.store.registry.contains source.store.config.fallback with
  | false =>
      rw [found_of_not_contains hcontains]
      exact Or.inl ⟨rfl, h.report _ _ _⟩
  | true =>
      cases hfound : source.found source.store.config.fallback with
      | ok base => exact Or.inl ⟨rfl, hcurrent⟩
      | error error =>
          rcases Store.fetch_error hminimum hfound with ⟨cause, rfl⟩ | ⟨digits, rfl, hoverlong⟩
          · exact Or.inl ⟨rfl, hcurrent.report _ _ _⟩
          · exact Or.inr ⟨digits, rfl, hoverlong⟩

end Current

/-- An audit reports on every locale in turn, and before them on the base if that is not there; or
it fails with a version that is too long. -/
theorem run_reported (config : Config) (disk : Disk) (directory : String)
    (hminimum : (Version.parse? config.minVersion).isSome = true) :
    (∃ reports, (run config disk directory).1 = .ok ⟨config.fallback,
        (if (ofDirectory config disk directory).store.registry.contains config.fallback then []
          else [missingBase config.fallback]) ++ reports⟩ ∧
      List.Forall₂ (Reported (ofDirectory config disk directory)
          ((ofDirectory config disk directory).found config.fallback).toOption)
        (ofDirectory config disk directory).store.registry.locales reports) ∨
    ∃ code digits, (run config disk directory).1 = .error (.version (.oversized digits)) ∧
      (ofDirectory config disk directory).store.Overlong disk code digits := by
  have hfresh : Current (ofDirectory config disk directory) (ofDirectory config disk directory) :=
    Current.refl rfl
  have hbase := loadBase_current hfresh hminimum directory
  rcases hloaded : loadBase (ofDirectory config disk directory) directory with ⟨outcome, middle⟩
  rw [hloaded] at hbase
  rcases hdiscover : Registry.discover config disk directory with ⟨registry, journal⟩
  rcases hbase with ⟨rfl, hcurrent⟩ | ⟨digits, rfl, hoverlong⟩
  · have hall := reportOnAll_current hcurrent hminimum
      ((ofDirectory config disk directory).found config.fallback).toOption
      (ofDirectory config disk directory).store.registry.locales
    rcases hreported : reportOnAll
      ((ofDirectory config disk directory).found config.fallback).toOption middle
      (ofDirectory config disk directory).store.registry.locales with ⟨outcome, last⟩
    rw [hreported] at hall
    simp only [ofDirectory, hdiscover] at hloaded hreported hall ⊢
    rcases hall with ⟨reports, rfl, hall⟩ | ⟨code, digits, rfl, hoverlong⟩
    · exact Or.inl ⟨reports, by simp only [run, hdiscover, hloaded, hreported], hall⟩
    · exact Or.inr ⟨code, digits, by simp only [run, hdiscover, hloaded, hreported], hoverlong⟩
  · simp only [ofDirectory, hdiscover] at hloaded hoverlong ⊢
    exact Or.inr ⟨_, digits, by simp only [run, hdiscover, hloaded], hoverlong⟩

theorem Reported.not_overlong {source : Library} {base : Option Catalog} {locale : Locale}
    {report : LocaleReport} (h : Reported source base locale report) (digits : Nat) :
    ¬source.store.Overlong source.disk locale.code digits := by
  intro hoverlong
  have hversion := found_of_overlong hoverlong
  cases h with
  | found hfound => cases hversion.symm.trans hfound
  | failed hfound => cases hversion.symm.trans hfound

/-- If all locales of a library are reported on, no version is too long. -/
theorem auditable_of_reported {source : Library} {base : Option Catalog}
    {reports : List LocaleReport}
    (h : List.Forall₂ (Reported source base) source.store.registry.locales reports) :
    source.Auditable := by
  intro code digits hoverlong
  obtain ⟨locale, hlocale, rfl⟩ := exists_locale_of_overlong hoverlong
  obtain ⟨n, hn, rfl⟩ := List.getElem_of_mem hlocale
  exact (h.get hn (h.length_eq ▸ hn)).not_overlong digits hoverlong

/-- An audit comes to an end just when no version is too long. -/
theorem run_isOk_iff (config : Config) (disk : Disk) (directory : String)
    (hminimum : (Version.parse? config.minVersion).isSome = true) :
    (∃ audit, (run config disk directory).1 = .ok audit) ↔
      (ofDirectory config disk directory).Auditable := by
  rcases run_reported config disk directory hminimum with
    ⟨reports, hrun, hreported⟩ | ⟨code, digits, hrun, hoverlong⟩
  · exact iff_of_true ⟨_, hrun⟩ (auditable_of_reported hreported)
  · refine iff_of_false (fun hok => ?_) fun hauditable => hauditable code digits hoverlong
    obtain ⟨audit, haudit⟩ := hok
    cases haudit.symm.trans hrun

/-- A directory is complete when the base is there and every locale passes. The base is a locale as
well, so it loads and there is something to compare with. -/
theorem complete_iff {source : Library} :
    source.Complete ↔ source.store.registry.contains source.store.config.fallback = true ∧
      ∀ locale ∈ source.store.registry.locales,
        Passes source (source.found source.store.config.fallback).toOption locale := by
  constructor
  · intro h
    refine ⟨h.base, fun locale hlocale => ?_⟩
    obtain ⟨base, hbase⟩ := h.found_base
    obtain ⟨catalog, hcatalog⟩ := h.loads locale hlocale
    refine ⟨catalog, hcatalog, ?_⟩
    rw [hbase]
    exact (ok_compare_iff (Store.fetch_ok hbase).1 (Store.fetch_ok hcatalog).1).mpr
      ⟨h.covers locale hlocale catalog base hcatalog hbase,
        h.translated locale hlocale catalog hcatalog⟩
  · rintro ⟨hbase, hpasses⟩
    obtain ⟨locale, hlocale, hcode⟩ := Registry.exists_locale_of_contains hbase
    obtain ⟨base, hfound, -⟩ := hpasses locale hlocale
    rw [hcode] at hfound
    rw [hfound] at hpasses
    have hok (locale : Locale) (hlocale : locale ∈ source.store.registry.locales)
        (catalog : Catalog) (hcatalog : source.found locale.code = .ok catalog) :
        (∀ context key, base.contains context key = true → catalog.contains context key = true) ∧
          ∀ message ∈ catalog.messages, message.text ≠ "" := by
      obtain ⟨other, hother, hcompare⟩ := hpasses locale hlocale
      cases hcatalog.symm.trans hother
      exact (ok_compare_iff (Store.fetch_ok hfound).1 (Store.fetch_ok hcatalog).1).mp hcompare
    refine ⟨hbase, fun locale hlocale => ?_, fun locale hlocale catalog other hcatalog hother => ?_,
      fun locale hlocale catalog hcatalog => (hok locale hlocale catalog hcatalog).2⟩
    · obtain ⟨catalog, hcatalog, -⟩ := hpasses locale hlocale
      exact ⟨catalog, hcatalog⟩
    · cases hfound.symm.trans hother
      exact (hok locale hlocale catalog hcatalog).1

/-- An audit comes to an end and is passed just when the directory is complete. -/
theorem run_iff (config : Config) (disk : Disk) (directory : String)
    (hminimum : (Version.parse? config.minVersion).isSome = true) :
    (∃ audit, (run config disk directory).1 = .ok audit ∧ audit.ok = true) ↔
      (ofDirectory config disk directory).Complete := by
  rcases run_reported config disk directory hminimum with
    ⟨reports, hrun, hreported⟩ | ⟨code, digits, hrun, hoverlong⟩
  · rw [hrun]
    simp only [Except.ok.injEq, exists_eq_left']
    have hall := all_ok_iff hreported
    rw [complete_iff]
    have hfallback :
        (ofDirectory config disk directory).store.config.fallback = config.fallback := rfl
    rw [hfallback]
    cases hcontains : (ofDirectory config disk directory).store.registry.contains
      config.fallback with
    | false => simp [Audit.ok, missingBase, LocaleReport.ok]
    | true =>
        -- The base has a report of its own, so there is something to report.
        obtain ⟨locale, hlocale, -⟩ := Registry.exists_locale_of_contains hcontains
        have hsome : reports ≠ [] := by
          rintro rfl
          rw [List.forall₂_nil_right_iff.mp hreported] at hlocale
          cases hlocale
        rw [← hall]
        simp [Audit.ok, hsome]
  · refine iff_of_false (fun hok => ?_) fun hcomplete => hcomplete.auditable code digits hoverlong
    obtain ⟨audit, haudit, -⟩ := hok
    cases haudit.symm.trans hrun

end Audit

end Polyglot
