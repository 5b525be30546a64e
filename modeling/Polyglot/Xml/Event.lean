import Polyglot.Text.Reader
import Polyglot.Xml.Character

/-!
The events of XML content: tags, runs of text, comments and processing instructions, each read off
the front of what is left of a document. References in text and in attribute values are replaced
while they are read.
-/

namespace Polyglot.Xml

open Text Reader

/-- A qualified name. The qualifier is empty when there is no colon. -/
structure Name where
  qualifier : String := ""
  base : String
  deriving DecidableEq, Repr, Inhabited

def Name.written (name : Name) : String :=
  if name.qualifier = "" then name.base else name.qualifier ++ ":" ++ name.base

structure Attribute where
  name : Name
  value : String
  deriving DecidableEq, Repr, Inhabited

/-- What content is made of. An element without content has a start tag that is closed. -/
inductive Event where
  | start (name : Name) (attributes : List Attribute) (closed : Bool)
  | stop (name : Name)
  | text (run : String)
  | comment (body : String)
  | instruction (target body : String)
  deriving DecidableEq, Repr, Inhabited

/-- The entities that may be referred to by name, apart from the five predefined ones. What they
stand for does not matter: a document that declares entities is checked for its form only. -/
structure References where
  inContent : String → Bool
  inValue : String → Bool

/-- No entity but the predefined ones. -/
def References.none : References := ⟨fun _ => false, fun _ => false⟩

namespace Event

def spaces : Reader (List Char) := run isSpace

def readPlainName : Reader String := do
  let first ← one isNameStart
  let others ← run isNameCharacter
  return String.ofList (first :: others)

def readName : Reader Name := do
  let first ← readPlainName
  if ← accept [':'] then
    let second ← readPlainName
    return { qualifier := first, base := second }
  else return { base := first }

/-- Reads a name in which colons count as letters. -/
def readLooseName : Reader String := do
  let first ← one fun c => isNameStart c || c == ':'
  let others ← run fun c => isNameCharacter c || c == ':'
  return String.ofList (first :: others)

/-! ### References -/

/-- The entities that every document may refer to. -/
def predefined : List (String × Char) := [
  ("lt", '<'), ("gt", '>'), ("amp", '&'), ("apos", '\''), ("quot", '"')]

def hexValue (c : Char) : Nat :=
  if c.isDigit then c.toNat - '0'.toNat else c.toLower.toNat - 'a'.toNat + 10

def isHexDigit (c : Char) : Bool :=
  c.isDigit || ('a' ≤ c && c ≤ 'f') || ('A' ≤ c && c ≤ 'F')

/-- The number that digits spell in a base. -/
def spelled (base : Nat) (digits : List Char) : Nat :=
  digits.foldl (fun value c => value * base + hexValue c) 0

/-- The character at a code point, if a document may hold it. -/
def character? (point : Nat) : Option Char :=
  let c := Char.ofNat point
  if c.toNat = point ∧ isCharacter c then some c else none

def readCharacterReference : Reader Char := do
  let point ← do
    if ← accept ['x'] then pure (spelled 16 (← run1 isHexDigit))
    else pure (spelled 10 (← run1 Char.isDigit))
  expect [';']
  match character? point with
  | some c => return c
  | none => refuse

/-- Reads a reference after its ampersand, with the names that are allowed beside the predefined
ones. -/
def readReference (allowed : String → Bool) : Reader (List Char) := do
  if ← accept ['#'] then return [← readCharacterReference]
  let entity ← readLooseName
  expect [';']
  match predefined.lookup entity with
  | some c => return [c]
  | none =>
    require (allowed entity)
    return []

/-! ### Text -/

/-- Reads the next character of a run of text or what a reference there stands for. -/
def readTextItem (references : References) : Reader (Option (List Char)) := do
  match ← ahead with
  | [] => return none
  | '<' :: _ => return none
  | '&' :: rest =>
    set rest
    return some (← readReference references.inContent)
  | ']' :: ']' :: '>' :: _ => refuse
  | c :: rest =>
    set rest
    return some [c]

/-- Reads text up to the next markup. The mark that ends a character data section may not stand in
it. -/
def readText (references : References) : Reader Event := do
  let items ← many (readTextItem references)
  return .text (String.ofList items.flatten)

/-! ### Tags -/

/-- Reads the next character of an attribute value or what a reference there stands for. White space
becomes a space, unless it is written as a reference. -/
def readValueItem (references : References) (mark : Char) : Reader (Option (List Char)) := do
  match ← ahead with
  | [] => refuse
  | '<' :: _ => refuse
  | '&' :: rest =>
    set rest
    return some (← readReference references.inValue)
  | c :: rest =>
    if c == mark then return none
    set rest
    return some [if isSpace c then ' ' else c]

def readValue (references : References) : Reader String := do
  let mark ← one fun c => c == '"' || c == '\''
  let items ← many (readValueItem references mark)
  expect [mark]
  return String.ofList items.flatten

/-- Reads an attribute after the white space that stands before it, if there is one. -/
def readAttribute? (references : References) : Reader (Option Attribute) := do
  let space ← spaces
  match ← ahead with
  | '>' :: _ => return none
  | '/' :: _ => return none
  | _ =>
    require !space.isEmpty
    let name ← readName
    let _ ← spaces
    expect ['=']
    let _ ← spaces
    return some { name, value := ← readValue references }

def readStartTag (references : References) : Reader Event := do
  let name ← readName
  let attributes ← many (readAttribute? references)
  let closed ← accept ['/']
  expect ['>']
  return .start name attributes closed

def readEndTag : Reader Event := do
  let name ← readName
  let _ ← spaces
  expect ['>']
  return .stop name

/-! ### Comments, processing instructions and character data -/

/-- Reads a comment after its first mark. Two hyphens end it and may not stand in it. -/
def readComment : Reader Event := do
  let body ← upTo ['-', '-']
  expect ['>']
  return .comment (String.ofList body)

/-- Reads a processing instruction after its first mark. Its target is not `xml` in any case. -/
def readInstruction : Reader Event := do
  let target ← readPlainName
  require (target.toLower != "xml")
  let space ← spaces
  let body ← upTo ['?', '>']
  require (!space.isEmpty || body.isEmpty)
  return .instruction target (String.ofList body)

def readCharacterData : Reader Event := do
  let body ← upTo [']', ']', '>']
  return .text (String.ofList body)

/-- Reads the next event of content, of which there has to be some left. -/
def read (references : References) : Reader Event := do
  if ← accept ['<'] then
    if ← accept ['/'] then readEndTag
    else if ← accept ['?'] then readInstruction
    else if ← accept "!--".toList then readComment
    else if ← accept "![CDATA[".toList then readCharacterData
    else readStartTag references
  else
    require !(← ahead).isEmpty
    readText references

end Event
end Polyglot.Xml
