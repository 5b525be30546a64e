import Polyglot.Journal
import Polyglot.Text.Digit
import Polyglot.Text.UpperCase

/-!
The command line of the catalog check: a directory, which may be left out, and `--log-level` with
the name of a level. Long options may be shortened as long as they are not ambiguous, and a value
may follow an equals sign. Two hyphens end the options.
-/

namespace Polyglot.Check

structure Options where
  directory : Option String := none
  level : Level := .warning
  deriving DecidableEq, Repr

/-- An argument by its form. -/
inductive Argument where
  | plain (text : String)
  /-- The end of the options. -/
  | separator
  /-- The option for the level, with the value after an equals sign. -/
  | level (value : Option String)
  /-- The option for help, to which no value may be attached. Letters after the short form do not
  matter. -/
  | help (attached : Bool)
  | unknown
  deriving DecidableEq, Repr

inductive Request where
  | check (options : Options)
  | help
  | refuse
  deriving DecidableEq, Repr

namespace Argument

def long : List (List Char × (Option (List Char) → Argument)) := [
  ("--log-level".toList, fun value => .level (value.map String.ofList)),
  ("--help".toList, fun value => .help value.isSome)]

/-- One or more decimal digits. -/
def isNumber (text : List Char) : Bool := !text.isEmpty && text.all Text.isDecimal

/-- A number with a minus sign, whole or with a decimal point, is not an option. -/
def isNegativeNumber (text : List Char) : Bool :=
  let digits := text.drop 1
  isNumber digits ||
    match digits.dropWhile Text.isDecimal with
    | '.' :: places => isNumber places
    | _ => false

/-- The form of an argument that begins with a hyphen and is no option. -/
def ofStray (text : List Char) : Argument :=
  if isNegativeNumber text || text.contains ' ' then .plain (String.ofList text) else .unknown

/-- The form of an argument that begins with two hyphens. An option that is meant must be the only
one that begins in this way; there is no argument if it is not. -/
def ofLong? (text : List Char) : Option Argument :=
  let name := text.takeWhile (· != '=')
  let value := if text.contains '=' then some (text.drop (name.length + 1)) else none
  match long.filter (name.isPrefixOf ·.1) with
  | [(_, option)] => some (option value)
  | [] => some (ofStray text)
  | _ => none

/-- The form of an argument before the separator. -/
def ofText? (text : String) : Option Argument :=
  match text.toList with
  | ['-', '-'] => some .separator
  | '-' :: '-' :: rest => ofLong? ('-' :: '-' :: rest)
  | '-' :: 'h' :: rest => some (.help (rest.head? == some '='))
  | '-' :: c :: rest => some (ofStray ('-' :: c :: rest))
  | _ => some (.plain text)

/-- The forms of the arguments; behind a separator all of them are plain. -/
def ofTexts? : List String → Option (List Argument)
  | [] => some []
  | text :: rest =>
    match ofText? text with
    | none => none
    | some .separator => some (.separator :: rest.map .plain)
    | some argument => (ofTexts? rest).map (argument :: ·)

end Argument

namespace Options

def setLevel? (options : Options) (value : String) : Option Options :=
  (Level.named? (String.ofList (Text.upper value.toList))).map fun level => { options with level }

/-- Reads arguments from left to right. What there is no place for is only refused in the end, so
that a later request for help is heard. A separator goes with the plain argument next to it. -/
def read (stray : Bool) (options : Options) : List Argument → Request
  | [] => if stray then .refuse else .check options
  | .help attached :: _ => if attached then .refuse else .help
  | .unknown :: rest => read true options rest
  | .level (some value) :: rest =>
    match options.setLevel? value with
    | some options => read stray options rest
    | none => .refuse
  | .level none :: .plain value :: rest =>
    match options.setLevel? value with
    | some options => read stray options rest
    | none => .refuse
  | .level none :: _ => .refuse
  | .plain text :: .separator :: rest =>
    if options.directory.isSome then read true options rest
    else read stray { options with directory := some text } rest
  | .plain text :: rest =>
    if options.directory.isSome then read true options rest
    else read stray { options with directory := some text } rest
  | .separator :: rest => read (stray || options.directory.isSome) options rest

def ofTexts (texts : List String) : Request :=
  match Argument.ofTexts? texts with
  | none => .refuse
  | some arguments => read false {} arguments

end Options
end Polyglot.Check
