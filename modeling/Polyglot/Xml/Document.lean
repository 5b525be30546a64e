import Polyglot.Xml.Charset
import Polyglot.Xml.Doctype

/-!
Whole documents. The bytes of a document are decoded, its line ends are made uniform, and its text
is read as a declaration, an optional document type declaration and one root element, with comments
and processing instructions around them.
-/

namespace Polyglot.Xml

open Text Reader

structure Document where
  doctype : Doctype
  root : Node

namespace Document

/-- The character set of a document and the bytes after its mark: a byte order mark decides, then
the declaration, and UTF-8 is assumed otherwise. -/
def charset? (bytes : ByteArray) : Option (Charset × ByteArray) :=
  match Charset.ofMark? bytes with
  | some (charset, length) => some (charset, bytes.extract length bytes.size)
  | none =>
    match Declaration.read (bytes.toList.map fun byte => Char.ofNat byte.toNat) with
    | some ({ charset := some name, .. }, _) => (Charset.named? name).map (·, bytes)
    | some _ => some (.utf8, bytes)
    | none => none

/-- Ends every line with a line feed. -/
def unifyLines : List Char → List Char → List Char
  | taken, '\r' :: '\n' :: rest => unifyLines ('\n' :: taken) rest
  | taken, '\r' :: rest => unifyLines ('\n' :: taken) rest
  | taken, c :: rest => unifyLines (c :: taken) rest
  | taken, [] => taken.reverse

/-- The text of a document, if its bytes have a meaning and it holds only characters that a document
may hold. -/
def text? (bytes : ByteArray) : Option (List Char) := do
  let (charset, bytes) ← charset? bytes
  let text ← charset.decode? bytes
  guard (text.all isCharacter)
  return unifyLines [] text

/-- Passes over white space, a comment or a processing instruction. -/
def skipAside : Reader (Option Unit) := do
  let space ← run isSpace
  if ← accept "<!--".toList then
    let _ ← Event.readComment
    return some ()
  else if ← accept "<?".toList then
    let _ ← Event.readInstruction
    return some ()
  else return if space.isEmpty then none else some ()

def skipAsides : Reader Unit := do
  let _ ← many skipAside

def readTree (references : References) : Nat → Growth → Reader Node
  | 0, _ => refuse
  | fuel + 1, growth => do
    match growth.step (← Event.read references) with
    | some (.closed root) => return root
    | some growth => readTree references fuel growth
    | none => refuse

def readRoot (references : References) : Reader Node := do
  readTree references ((← ahead).length + 1) .bare

def read : Reader Document := do
  let declaration ← Declaration.read
  skipAsides
  let doctype ← do
    if ← accept "<!DOCTYPE".toList then
      let doctype ← Doctype.read
      skipAsides
      pure doctype
    else pure {}
  let root ← readRoot (doctype.references declaration.standalone)
  skipAsides
  return { doctype, root }

/-- The document that bytes stand for, if they are well-formed. -/
def parse? (bytes : ByteArray) : Option Document := (text? bytes).bind (readAll? read)

end Document
end Polyglot.Xml
