import Polyglot.Check
import Polyglot.Json
import Polyglot.Shipped

/-!
The catalog check as a program. The files of the directory that is named on the command line are
handed over on standard input, as a JSON object from names to texts; without a directory the shipped
catalogs are checked.
-/

namespace Polyglot.Check

def shippedDirectory : String := "translations"

/-- What a JSON value stands for in a directory: a text is a file, and null is a directory. -/
def fileOf? : Json → Option Entry
  | .text text => some (.file text.toUTF8)
  | .null => some .directory
  | _ => none

/-- A directory with the files that an object names. A value that is no object is no directory. -/
def diskOf (directory : String) : Json → Disk
  | .object fields =>
    let files := fields.filterMap fun (name, value) =>
      (fileOf? value).map fun entry => (joinPath directory name, entry)
    files.foldl (fun disk (path, entry) => disk.put path entry) [(directory, .directory)]
  | _ => []

/-- The disk that a check looks at, given what stands on standard input. -/
def diskFor (options : Options) (input : String) : Disk :=
  match options.directory with
  | none => Shipped.disk shippedDirectory
  | some directory =>
    let json := (Json.parse { depth := input.length } input.toList).toOption.getD .null
    diskOf (normalizePath directory) json

end Polyglot.Check

open Polyglot Check in
def main (arguments : List String) : IO UInt32 := do
  match Options.ofTexts arguments with
  | .refuse => return 2
  | .help => return 0
  | .check options =>
    let input ← if options.directory.isSome then (← IO.getStdin).readToEnd else pure ""
    match run options (diskFor options input) shippedDirectory with
    | .ok report =>
      IO.print report.output
      IO.eprint report.log
      return report.exit.toUInt32
    | .error error =>
      IO.eprintln error.message
      return 1
