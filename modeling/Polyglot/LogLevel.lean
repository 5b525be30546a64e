import Polyglot.Table
import Polyglot.Text.Blank
import Polyglot.Text.Digit
import Polyglot.Text.Numeral
import Polyglot.Text.Quoted
import Polyglot.Text.UpperCase

/-!
Levels of importance as numbers, and how users ask for them: by number, by name in any case, or not
at all.
-/

namespace Polyglot

inductive LevelRequest where
  | standard
  | number (level : Int)
  | text (text : String)
  deriving DecidableEq, Repr

inductive LevelError where
  | unknown (text : String)
  /-- Digits that have no decimal value, such as superscripts. -/
  | noNumber (digits : String)
  /-- A number with more digits than are converted. -/
  | oversized (digits : Nat)
  deriving DecidableEq, Repr

/-- The text of an error. Of digits no more than two hundred characters are shown. -/
def LevelError.message : LevelError → String
  | .unknown text => "Unknown log level: " ++ quoted text
  | .noNumber digits =>
    "invalid literal for int() with base 10: " ++ String.ofList ((quoted digits).toList.take 200)
  | .oversized digits => Numeral.oversizedMessage digits

namespace LogLevel

/-- The level of the root logger, and the one that holds when none is asked for. -/
def standard : Int := 30

/-- The names of levels. Where a level has two names, the first one is written. -/
def names : List (String × Int) := [
  ("CRITICAL", 50), ("FATAL", 50), ("ERROR", 40), ("WARNING", 30), ("WARN", 30), ("INFO", 20),
  ("DEBUG", 10), ("NOTSET", 0)]

def name (level : Int) : String :=
  match names.find? (·.2 == level) with
  | some (name, _) => name
  | none => "Level " ++ toString level

/-- The number that figures spell. They are looked at from the left, up to the first one that has no
decimal value, and counted before anything else is found wrong with them. -/
def ofFigures (word : List Char) : Except LevelError Int :=
  let digits := word.takeWhile Text.isDecimal
  if Numeral.isOversized digits then .error (.oversized digits.length)
  else
    match Text.decimalValue? word with
    | some level => .ok level
    | none => .error (.noNumber (String.ofList word))

/-- The level that a text names, regardless of case and white space around it. -/
def ofText (text : String) : Except LevelError Int :=
  let word := Text.upper (Text.trim text.toList)
  if !word.isEmpty && word.all Text.isFigure then ofFigures word
  else
    match names.lookup (String.ofList word) with
    | some level => .ok level
    | none => .error (.unknown text)

def resolve : LevelRequest → Except LevelError Int
  | .standard => .ok standard
  | .number level => .ok level
  | .text text => ofText text

end LogLevel
end Polyglot
