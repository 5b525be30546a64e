import Polyglot.Text.Digit

/-!
Numbered placeholders. A text that is shown to a user holds slots, `%1` to `%9`, that are filled
from a list of arguments. Substitution cuts the text into slots and literal characters and fills
each slot on its own; inserted text is not read again. Validation looks at every `%` followed by a
decimal digit, so that a `%0` can be found and refused.
-/

namespace Polyglot

/-- A piece of a text as substitution reads it. -/
inductive Piece where
  | literal (c : Char)
  | slot (position : Nat)
  deriving DecidableEq, Repr

namespace Placeholder

open Text

def slotNumber (digit : Char) : Nat := digit.toNat - '0'.toNat

/-- Cuts a text into slots and literal characters, from left to right. -/
def cut : List Char → List Piece
  | '%' :: c :: rest =>
    if isPositiveDigit c then .slot (slotNumber c) :: cut rest else .literal '%' :: cut (c :: rest)
  | c :: rest => .literal c :: cut rest
  | [] => []

/-- The text of a piece: a slot with an argument is that argument, any other piece is as written. -/
def fill (arguments : List String) : Piece → List Char
  | .literal c => [c]
  | .slot position =>
    match arguments[position - 1]? with
    | some argument => argument.toList
    | none => ['%', Char.ofNat ('0'.toNat + position)]

/-- The position of a slot that has no argument. -/
def unfilled? (arguments : List String) : Piece → Option Nat
  | .literal _ => none
  | .slot position => if arguments.length < position then some position else none

/-- Fills the slots of a text. The positions without an argument come in the order in which they
are first met, each once. -/
def substitute (text : String) (arguments : List String) : String × List Nat :=
  let pieces := cut text.toList
  (String.ofList (pieces.flatMap (fill arguments)),
    (pieces.filterMap (unfilled? arguments)).eraseDups)

/-- Every position that a `%` and a decimal digit name, in order of appearance. -/
def scan : List Char → List Nat
  | '%' :: c :: rest =>
    match digitValue? c with
    | some position => position :: scan rest
    | none => scan (c :: rest)
  | _ :: rest => scan rest
  | [] => []

/-- The positions of a text, ascending and each once. -/
def positions (text : String) : List Nat :=
  (List.range 10).filter (scan text.toList).contains

end Placeholder
end Polyglot
