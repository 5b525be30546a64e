/-!
Reading from the front of a text. A reader takes characters off the front of what is left, or
refuses the text; it never looks back.
-/

namespace Polyglot.Text

/-- Reads a value off the front of a text, unless the text is refused. -/
abbrev Reader := StateT (List Char) Option

namespace Reader

def ahead : Reader (List Char) := get

def refuse {α : Type} : Reader α := fun _ => none

def require (condition : Bool) : Reader Unit := fun text =>
  if condition then some ((), text) else none

def one (condition : Char → Bool) : Reader Char := fun text =>
  match text with
  | c :: rest => if condition c then some (c, rest) else none
  | [] => none

def expect (word : List Char) : Reader Unit := fun text =>
  if word.isPrefixOf text then some ((), text.drop word.length) else none

/-- Takes the given characters if they come next, and tells whether they did. -/
def accept (word : List Char) : Reader Bool := fun text =>
  if word.isPrefixOf text then some (true, text.drop word.length) else some (false, text)

def run (condition : Char → Bool) : Reader (List Char) := fun text =>
  some (text.takeWhile condition, text.dropWhile condition)

/-- Takes the longest run of characters that satisfy a condition, at least one. -/
def run1 (condition : Char → Bool) : Reader (List Char) := do
  let first ← one condition
  let others ← run condition
  return first :: others

/-- Reads a value if there is one; otherwise nothing is taken. -/
def attempt {α : Type} (reader : Reader α) : Reader (Option α) := fun text =>
  match reader text with
  | some (value, rest) => some (some value, rest)
  | none => some (none, text)

/-- Splits a text at the first place where a mark stands; the mark is in neither part. -/
def splitAt? (mark : List Char) : List Char → List Char → Option (List Char × List Char)
  | taken, text@(c :: rest) =>
    if mark.isPrefixOf text then some (taken.reverse, text.drop mark.length)
    else splitAt? mark (c :: taken) rest
  | _, [] => none

/-- Takes everything up to a mark, and the mark itself. -/
def upTo (mark : List Char) : Reader (List Char) := splitAt? mark []

/-- Reads items as long as there is one, at most one more than the fuel is long. The items read so
far come newest first. -/
def loop {α : Type} (item : Reader (Option α)) : List Char → List α → Reader (List α)
  | [], items => do
    match ← item with
    | some _ => refuse
    | none => return items.reverse
  | _ :: fuel, items => do
    match ← item with
    | some next => loop item fuel (next :: items)
    | none => return items.reverse

/-- Reads items as long as there is one. An item takes at least one character, so there are no more
of them than there are characters left. -/
def many {α : Type} (item : Reader (Option α)) : Reader (List α) := do
  loop item (← ahead) []

/-- What a reader makes of a whole text. -/
def readAll? {α : Type} (reader : Reader α) (text : List Char) : Option α :=
  match reader text with
  | some (value, []) => some value
  | _ => none

end Reader
end Polyglot.Text
