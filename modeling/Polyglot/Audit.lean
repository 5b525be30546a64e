import Polyglot.Store

/-!
Auditing a directory: every catalog in it is loaded and compared with the base catalog, which is
that of the locale to fall back to. A version that cannot be had puts an end to the audit.
-/

namespace Polyglot

structure LocaleReport where
  code : String
  error : Option String := none
  missing : List (String × String) := []
  extra : List (String × String) := []
  untranslated : List (String × String) := []
  coverage : Ratio := ⟨0, 1⟩
  deriving DecidableEq, Repr

/-- A locale is in order when its catalog loads, lacks no key of the base, and is translated. -/
def LocaleReport.ok (report : LocaleReport) : Bool :=
  report.error.isNone && report.missing.isEmpty && report.untranslated.isEmpty

structure Audit where
  base : String
  reports : List LocaleReport
  deriving DecidableEq, Repr

namespace Audit

/-- An audit is passed when there is something to report and every locale is in order. -/
def ok (audit : Audit) : Bool := !audit.reports.isEmpty && audit.reports.all LocaleReport.ok

/-- The findings for a catalog that loads. Without a base there is nothing to compare with. -/
def compare (base : Option Catalog) (catalog : Catalog) : LocaleReport where
  code := catalog.locale.code
  missing := base.elim [] fun base => base.keys.filter (!catalog.keys.contains ·)
  extra := base.elim [] fun base => catalog.keys.filter (!base.keys.contains ·)
  untranslated := catalog.untranslated
  coverage := catalog.coverage

def reportOn (base : Option Catalog) (library : Library) (locale : Locale) :
    Except LoadError LocaleReport × Library :=
  match library.load locale.code with
  | (.ok catalog, library) => (.ok (compare base catalog), library)
  | (.error (.catalog error), library) =>
    (.ok { code := locale.code, error := some error.message }, library)
  | (.error (.version fault), library) => (.error (.version fault), library)

def reportOnAll (base : Option Catalog) : Library → List Locale →
    Except LoadError (List LocaleReport) × Library
  | library, [] => (.ok [], library)
  | library, locale :: rest =>
    match reportOn base library locale with
    | (.error error, library) => (.error error, library)
    | (.ok report, library) =>
      match reportOnAll base library rest with
      | (.ok reports, library) => (.ok (report :: reports), library)
      | (.error error, library) => (.error error, library)

def loadBase (library : Library) (directory : String) :
    Except LoadError (Option Catalog) × Library :=
  let code := library.store.config.fallback
  if library.store.registry.contains code then
    match library.load code with
    | (.ok catalog, library) => (.ok (some catalog), library)
    | (.error (.catalog error), library) =>
      (.ok none, library.report .error .audit s!"Base catalog failed to load: {error.message}")
    | (.error (.version fault), library) => (.error (.version fault), library)
  else
    (.ok none, library.report .error .audit s!"Base locale {code} has no catalog in {directory}")

/-- The report that stands for a base catalog that is not there. -/
def missingBase (code : String) : LocaleReport := { code, error := some "Base catalog not found" }

def run (config : Config) (disk : Disk) (directory : String) : Except LoadError Audit × Journal :=
  let (registry, journal) := Registry.discover config disk directory
  match loadBase { store := { registry, config }, disk, journal } directory with
  | (.error error, library) => (.error error, library.journal)
  | (.ok base, library) =>
    match reportOnAll base library registry.locales with
    | (.error error, library) => (.error error, library.journal)
    | (.ok reports, library) =>
      let absent := if registry.contains config.fallback then [] else [missingBase config.fallback]
      (.ok ⟨config.fallback, absent ++ reports⟩, library.journal)

end Audit
end Polyglot
