import Polyglot.Audit
import Polyglot.Check.Options

/-!
The catalog check: an audit of a directory as a text for the person who is about to accept a
translation. It succeeds when the audit is passed.
-/

namespace Polyglot.Check

/-- What a check prints, what it logs, and how it ends. -/
structure Report where
  exit : Nat
  output : String
  log : String
  deriving DecidableEq, Repr

def keyLine (finding : String) : String × String → String
  | (context, key) => s!"  - {finding} {context}/{quoted key}"

def localeLines (base : String) (report : LocaleReport) : List String :=
  match report.error with
  | some error => [s!"❌ {report.code}: {error}"]
  | none =>
    let mark := if report.ok then "✓" else "⚠"
    s!"{mark} {report.code}: {report.coverage.percent} translated" ::
      report.missing.map (keyLine "missing") ++
      report.extra.map (keyLine s!"not in {base}:") ++
      report.untranslated.map (keyLine "untranslated")

def verdict (passed : Bool) : List String :=
  if passed then ["✅ All catalogs are valid and complete!"] else ["", "❌ Catalog check failed"]

def lines (directory : String) (audit : Audit) : List String :=
  s!"Checking catalogs in {directory}..." :: audit.reports.flatMap (localeLines audit.base) ++
    verdict audit.ok

/-- Lines as a text; each of them is ended. -/
def text (lines : List String) : String := String.join (lines.map (· ++ "\n"))

/-- Checks a directory, or the shipped catalogs if none is named. -/
def run (options : Options) (disk : Disk) (shipped : String) : Except LoadError Report :=
  let directory := normalizePath (options.directory.getD shipped)
  let (outcome, journal) := Audit.run .standard disk directory
  outcome.map fun audit =>
    { exit := if audit.ok then 0 else 1
      output := text (lines directory audit)
      log := text (journal.lines options.level.rank) }

end Polyglot.Check
