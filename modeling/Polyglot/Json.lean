import Polyglot.Text.Numeral
import Polyglot.Text.Reader

/-!
JSON values and how they are read. Besides the standard the reader takes `NaN`, `Infinity` and
`-Infinity`; of two fields with the same name the last one counts. Whole numbers are exact. A
surrogate that has no partner is read as the replacement character. There are limits to the digits
of a whole number and to the depth in which lists and objects are nested. A text is read from the
left to the right, and reading ends at the first thing that is malformed or beyond a limit.
-/

namespace Polyglot

/-- A number with a fraction or an exponent: `digits * 10 ^ exponent` or the negative of that. -/
structure Decimal where
  negative : Bool
  digits : Nat
  exponent : Int
  deriving DecidableEq, Repr

/-- The number of digits that a number is written with. -/
def Decimal.length (decimal : Decimal) : Nat := (Nat.toDigits 10 decimal.digits).length

/-- A number is zero in double precision when it is at most half of `2 ^ -1074`, the smallest
positive number there. The second condition implies the third one and is easily checked. -/
def Decimal.isZero (decimal : Decimal) : Bool :=
  decimal.digits == 0 || decimal.exponent + decimal.length < -323 ||
    decimal.digits * Nat.pow 2 1075 ≤ Nat.pow 10 (-decimal.exponent).toNat

inductive Json where
  | null
  | bool (value : Bool)
  | whole (value : Int)
  | decimal (value : Decimal)
  | infinity (negative : Bool)
  | notANumber
  | text (value : String)
  | list (items : List Json)
  | object (fields : List (String × Json))
  deriving Repr, Inhabited

namespace Json

open Text Reader

/-- The field of an object: the last one of a name. -/
def field? (name : String) : Json → Option Json
  | .object fields => fields.reverse.lookup name
  | _ => none

/-- The values that stand for the absence of something: null, false, zero, and what is empty. -/
def isVoid : Json → Bool
  | .null => true
  | .bool value => !value
  | .whole value => value == 0
  | .decimal value => value.isZero
  | .infinity _ => false
  | .notANumber => false
  | .text value => value == ""
  | .list items => items.isEmpty
  | .object fields => fields.isEmpty

/-! ### Reading -/

def isSpace (c : Char) : Bool := c == ' ' || c == '\t' || c == '\n' || c == '\r'

def skipSpace : Reader Unit := do
  let _ ← run isSpace

/-- The number that digits of a base spell. -/
def number (base : Nat) (digit : Char → Nat) (digits : List Char) : Nat :=
  digits.foldl (fun value c => value * base + digit c) 0

def digitValue (c : Char) : Nat := c.toNat - '0'.toNat

def isHexDigit (c : Char) : Bool :=
  c.isDigit || ('a' ≤ c && c ≤ 'f') || ('A' ≤ c && c ≤ 'F')

def hexValue (c : Char) : Nat :=
  if c.isDigit then digitValue c else c.toLower.toNat - 'a'.toNat + 10

def escapes : List (Char × Char) := [
  ('"', '"'), ('\\', '\\'), ('/', '/'), ('b', '\x08'), ('f', '\x0c'), ('n', '\n'), ('r', '\r'),
  ('t', '\t')]

/-- Reads what follows a backslash: a letter, or four hexadecimal digits. -/
def readEscape : Reader Nat := do
  if ← accept ['u'] then
    let a ← one isHexDigit
    let b ← one isHexDigit
    let c ← one isHexDigit
    let d ← one isHexDigit
    return number 16 hexValue [a, b, c, d]
  else
    let letter ← one fun c => (escapes.lookup c).isSome
    return ((escapes.lookup letter).getD letter).toNat

/-- Reads one unit of a string: a character, or what an escape stands for. The quote that ends the
string is none. -/
def readUnit : Reader (Option Nat) := do
  let c ← one (' ' ≤ ·)
  if c = '"' then return none
  else if c = '\\' then return some (← readEscape)
  else return some c.toNat

def isHighSurrogate (unit : Nat) : Bool := 0xd800 ≤ unit && unit < 0xdc00

def isLowSurrogate (unit : Nat) : Bool := 0xdc00 ≤ unit && unit < 0xe000

def single (unit : Nat) : Char :=
  if isHighSurrogate unit || isLowSurrogate unit then '\ufffd' else Char.ofNat unit

/-- Joins units to characters: a high surrogate and a low one make one character. -/
def join : List Nat → List Char
  | high :: low :: rest =>
    if isHighSurrogate high && isLowSurrogate low then
      Char.ofNat (0x10000 + (high - 0xd800) * 0x400 + (low - 0xdc00)) :: join rest
    else single high :: join (low :: rest)
  | [unit] => [single unit]
  | [] => []

def readString : Reader String := do
  return String.ofList (join (← many readUnit))

/-- Reads the digits before the fraction: a zero, or digits that do not begin with one. -/
def readWhole : Reader (List Char) := do
  if ← accept ['0'] then return ['0'] else run1 Char.isDigit

def readFraction : Reader (List Char) := do
  expect ['.']
  run1 Char.isDigit

def readExponent : Reader Int := do
  let _ ← one fun c => c == 'e' || c == 'E'
  let negative ← accept ['-']
  let _ ← if negative then pure false else accept ['+']
  let size : Int := number 10 digitValue (← run1 Char.isDigit)
  return if negative then -size else size

/-- A number as it is written. The mark of a fraction or an exponent counts only if digits follow
it. -/
structure Literal where
  negative : Bool
  whole : Numeral
  fraction : Option Numeral
  exponent : Option Int

def readLiteral (negative : Bool) : Reader Literal := do
  let whole ← readWhole
  let fraction ← attempt readFraction
  let exponent ← attempt readExponent
  return { negative, whole, fraction, exponent }

def named : List (String × Json) :=
  [("null", .null), ("true", .bool true), ("false", .bool false), ("NaN", .notANumber)]

/-- Reads the name of a value, if one of the given names comes next. -/
def readName : List (String × Json) → Reader (Option Json)
  | [] => return none
  | (name, value) :: rest => do
    if ← accept name.toList then return some value else readName rest

/-! ### Reading within limits -/

structure Limits where
  /-- The most digits of a whole number. -/
  digits : Nat := Numeral.maxDigits
  /-- The greatest depth in which lists and objects are nested. -/
  depth : Nat

inductive Fault where
  | malformed
  /-- A whole number has more digits than are converted. -/
  | oversized (digits : Nat)
  | tooDeep
  deriving DecidableEq, Repr

/-- Reads a value off the front of a text, unless there is a fault in it. -/
abbrev Scanner := StateT (List Char) (Except Fault)

/-- A reader refuses what is malformed. -/
def ofReader {α : Type} (reader : Reader α) : Scanner α := fun text =>
  match reader text with
  | some result => .ok result
  | none => .error .malformed

instance : MonadLift Reader Scanner := ⟨ofReader⟩

/-- The value of a number: a whole one if it has neither fraction nor exponent. Only whole numbers
are limited. -/
def ofLiteral (digits : Nat) (literal : Literal) : Except Fault Json :=
  let places := literal.fraction.getD []
  let value := number 10 digitValue (literal.whole ++ places)
  match literal.fraction, literal.exponent with
  | none, none =>
    if digits < literal.whole.length then .error (.oversized literal.whole.length)
    else .ok (.whole (if literal.negative then -value else value))
  | _, exponent => .ok (.decimal ⟨literal.negative, value, exponent.getD 0 - places.length⟩)

/-- Reads a number, with or without a sign, or one of the names of infinity. -/
def readNumber (digits : Nat) : Scanner Json := do
  let negative ← accept ['-']
  if ← accept "Infinity".toList then return .infinity negative
  ofLiteral digits (← readLiteral negative)

/-- Reads a comma and another item as long as there is one, at most as often as the fuel is long,
and then the mark that ends the sequence. The items read so far come newest first. -/
def readItems {α : Type} (close : Char) (item : Scanner α) : List Char → List α → Scanner (List α)
  | fuel, items => do
    skipSpace
    if ← accept [','] then
      match fuel with
      | [] => throw .malformed
      | _ :: fuel =>
        skipSpace
        readItems close item fuel ((← item) :: items)
    else
      expect [close]
      return items.reverse

/-- Reads the rest of a sequence: items between commas, and the mark that ends it. A comma takes a
character, so there are no more items than there are characters left. -/
def readSequence {α : Type} (close : Char) (item : Scanner α) : Scanner (List α) := do
  skipSpace
  if ← accept [close] then return []
  let first ← item
  readItems close item (← ahead) [first]

def readField (value : Scanner Json) : Scanner (String × Json) := do
  expect ['"']
  let name ← readString
  skipSpace
  expect [':']
  skipSpace
  return (name, ← value)

/-- Reads a list behind its bracket, given how the values inside are read. There may be no room for
them. -/
def readList (inner : Except Fault (Scanner Json)) : Scanner Json := do
  return .list (← readSequence ']' (← inner))

def readObject (inner : Except Fault (Scanner Json)) : Scanner Json := do
  return .object (← readSequence '\x7d' (readField (← inner)))

/-- Reads a value, given how the values inside of a list or an object are read. -/
def readOuter (digits : Nat) (inner : Except Fault (Scanner Json)) : Scanner Json := do
  if ← accept ['"'] then return .text (← readString)
  else if ← accept ['['] then readList inner
  else if ← accept ['\x7b'] then readObject inner
  else
    match ← readName named with
    | some value => return value
    | none => readNumber digits

/-- Reads a value whose lists and objects are nested up to a depth. -/
def readValue (digits : Nat) : Nat → Scanner Json
  | 0 => readOuter digits (.error .tooDeep)
  | depth + 1 => readOuter digits (.ok (readValue digits depth))

def readDocument (limits : Limits) : Scanner Json := do
  skipSpace
  let value ← readValue limits.digits limits.depth
  skipSpace
  return value

/-- The value that a text is, with nothing but white space around it. -/
def parse (limits : Limits) (text : List Char) : Except Fault Json :=
  match readDocument limits text with
  | .ok (value, []) => .ok value
  | .ok _ => .error .malformed
  | .error fault => .error fault

end Json
end Polyglot
