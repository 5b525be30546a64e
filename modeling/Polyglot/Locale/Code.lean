import Polyglot.Text.Blank
import Polyglot.Text.Digit
import Polyglot.Text.Word
import Polyglot.Text.Quoted

/-!
Locale codes. A code is a language of two or three letters, then optionally a region after a hyphen
or an underscore, an encoding after a dot and a modifier after an at sign. The normal form keeps
language and region only: `ru-ru.UTF-8@x` becomes `ru_RU`.
-/

namespace Polyglot

inductive CodeError where
  | empty
  | malformed (code : String)
  deriving DecidableEq, Repr

def CodeError.message : CodeError → String
  | .empty => "Locale code cannot be empty"
  | .malformed code => "Invalid locale code: " ++ quoted code

/-- The parts of a locale code that its normal form keeps. -/
structure CodeParts where
  language : List Char
  region : Option (List Char)
  deriving DecidableEq, Repr

namespace CodeParts

open Text

/-- Reads the region after a hyphen or an underscore: two letters, or three decimal digits. Without
one, nothing is read. -/
def region? : List Char → Option (List Char) × List Char
  | mark :: a :: b :: rest =>
    if mark = '-' ∨ mark = '_' then
      if a.isAlpha ∧ b.isAlpha then (some [a, b], rest)
      else
        match rest with
        | c :: rest' =>
          if isDecimal a ∧ isDecimal b ∧ isDecimal c then (some [a, b, c], rest')
          else (none, mark :: a :: b :: rest)
        | [] => (none, [mark, a, b])
    else (none, mark :: a :: b :: rest)
  | text => (none, text)

/-- Passes over the encoding after a dot: one or more word characters or hyphens. -/
def skipEncoding : List Char → List Char
  | '.' :: c :: rest =>
    if isWord c || c == '-' then rest.dropWhile (fun d => isWord d || d == '-')
    else '.' :: c :: rest
  | text => text

/-- What may stand last: nothing, or an at sign and one or more word characters. -/
def isModifier : List Char → Bool
  | [] => true
  | '@' :: c :: rest => (c :: rest).all isWord
  | _ => false

def read? (text : List Char) : Option CodeParts :=
  let language := text.takeWhile Char.isAlpha
  let (region, rest) := region? (text.dropWhile Char.isAlpha)
  if (language.length = 2 ∨ language.length = 3) ∧ isModifier (skipEncoding rest) then
    some ⟨language, region⟩
  else none

/-- The normal form: the language in lower case, the region in upper case after an underscore. -/
def render (parts : CodeParts) : List Char :=
  parts.language.map Char.toLower ++
    match parts.region with
    | some region => '_' :: region.map Char.toUpper
    | none => []

end CodeParts

/-- The normal form of a locale code as users and systems spell it. -/
def normalizeCode (code : String) : Except CodeError String :=
  match Text.trim code.toList with
  | [] => .error .empty
  | text =>
    match CodeParts.read? text with
    | some parts => .ok (String.ofList parts.render)
    | none => .error (.malformed code)

/-- The language of a code: all of it up to the first underscore. -/
def languageOf (code : String) : String := String.ofList (code.toList.takeWhile (· != '_'))

end Polyglot
