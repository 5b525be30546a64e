import Polyglot.Text.Reader
import Polyglot.Xml.Character

/-!
The XML declaration, which may stand at the very beginning of a document: the version, and
optionally the name of the character set and whether the document stands alone.
-/

namespace Polyglot.Xml

open Text Reader

/-- What a declaration says beyond the version. -/
structure Declaration where
  charset : Option (List Char) := none
  standalone : Bool := false
  deriving DecidableEq, Repr

namespace Declaration

def spaces : Reader (List Char) := run isSpace

def spaces1 : Reader (List Char) := run1 isSpace

def equals : Reader Unit := do
  let _ ← spaces
  expect ['=']
  let _ ← spaces

def quote : Reader Char := one fun c => c == '"' || c == '\''

def enclosed {α : Type} (value : Reader α) : Reader α := do
  let mark ← quote
  let inner ← value
  expect [mark]
  return inner

/-- Reads a version number; the major version is one. -/
def version : Reader Unit := do
  expect ['1', '.']
  let _ ← run Char.isDigit

/-- Reads the name of a character set: a letter, then letters, digits, dots, underscores and
hyphens. -/
def charsetName : Reader (List Char) := do
  let first ← one Char.isAlpha
  let others ← run fun c => c.isAlphanum || c == '.' || c == '_' || c == '-'
  return first :: others

def yesOrNo : Reader Bool := do
  if ← accept ['y', 'e', 's'] then return true
  expect ['n', 'o']
  return false

/-- Reads what may follow the version: white space and an assignment, both or none of them. -/
def assignment? {α : Type} (word : String) (value : Reader α) : Reader (Option α) := do
  let text ← ahead
  let space ← spaces
  if ← accept word.toList then
    require !space.isEmpty
    equals
    return some (← enclosed value)
  else
    set text
    return none

/-- Reads the declaration after its first word. -/
def body : Reader Declaration := do
  let _ ← spaces1
  expect "version".toList
  equals
  enclosed version
  let charset ← assignment? "encoding" charsetName
  let standalone ← assignment? "standalone" yesOrNo
  let _ ← spaces
  expect ['?', '>']
  return { charset, standalone := standalone.getD false }

/-- Reads the declaration of a document, if it has one. -/
def read : Reader Declaration := do
  let text ← ahead
  let marked ← accept "<?xml".toList
  if marked && (← ahead).head?.any isSpace then body
  else
    set text
    return {}

end Declaration
end Polyglot.Xml
