import Polyglot.Xml.Document

/-!
Reading documents that may be broken. Start tags are read as far as they make sense, and reading
goes on behind most errors: an end tag closes whatever element is open, an attribute that cannot be
read is left out, and text is not looked at. Reading ends where the document no longer has the shape
of one: no tag at the beginning, a tag without a name, or anything after the root element.
-/

namespace Polyglot.Xml.Recovery

open Text Reader

/-! ### Decoding -/

/-- What stands in for bytes without a meaning. -/
def substitute : Char := '\ufffd'

/-- The length of a sequence of bytes in UTF-8, and the bits that its first byte contributes. -/
def lead (byte : UInt8) : Nat × Nat :=
  if byte < 0x80 then (1, byte.toNat)
  else if 0xc2 ≤ byte ∧ byte < 0xe0 then (2, byte.toNat % 0x20)
  else if 0xe0 ≤ byte ∧ byte < 0xf0 then (3, byte.toNat % 0x10)
  else if 0xf0 ≤ byte ∧ byte < 0xf5 then (4, byte.toNat % 0x08)
  else (0, 0)

/-- The character that a sequence of bytes in UTF-8 stands for. -/
def sequence? (bits : Nat) (tail : List UInt8) : Option Char :=
  if tail.all fun byte => 0x80 ≤ byte && byte < 0xc0 then
    let point := tail.foldl (fun value byte => value * 0x40 + byte.toNat % 0x40) bits
    let c := Char.ofNat point
    if c.toNat = point ∧ c.utf8Size = tail.length + 1 then some c else none
  else none

/-- Decodes UTF-8; a byte that begins no sequence is replaced on its own. -/
def decodeUtf8 : Nat → List Char → List UInt8 → List Char
  | fuel + 1, taken, byte :: rest =>
    let (length, bits) := lead byte
    let tail := rest.take (length - 1)
    if length = 0 ∨ tail.length + 1 < length then decodeUtf8 fuel (substitute :: taken) rest
    else
      match sequence? bits tail with
      | some c => decodeUtf8 fuel (c :: taken) (rest.drop tail.length)
      | none => decodeUtf8 fuel (substitute :: taken) rest
  | _, taken, _ => taken.reverse

/-- The text of a document as far as it can be told. An unknown character set is taken for UTF-8. -/
def text (bytes : ByteArray) : List Char :=
  let (charset, bytes) := (Document.charset? bytes).getD (.utf8, bytes)
  match charset.decode? bytes, charset with
  | some text, _ => Document.unifyLines [] text
  | none, .utf8 => Document.unifyLines [] (decodeUtf8 bytes.size [] bytes.toList)
  | none, .utf16 bigEndian =>
    let units := (Charset.units? bigEndian [] (bytes.toList.take (bytes.size / 2 * 2))).getD []
    Document.unifyLines [] (units.map Char.ofNat)
  | none, charset =>
    Document.unifyLines [] (bytes.toList.map fun byte => (charset.single? byte).getD substitute)

/-! ### Tags -/

/-- Reads a value between quotation marks. A reference that cannot be resolved stands for
nothing. -/
def readValueItem (mark : Char) : Reader (Option (List Char)) := fun text =>
  match Event.readValueItem ⟨fun _ => true, fun _ => true⟩ mark text, text with
  | some result, _ => some result
  | none, '&' :: rest => some (some [], rest)
  | none, _ => none

def readValue : Reader String := do
  let mark ← Declaration.quote
  let items ← many (readValueItem mark)
  expect [mark]
  return String.ofList items.flatten

/-- Reads one attribute. It is left out if it has no value. -/
def readAttribute : Reader (Option (String × String)) := do
  let name ← Event.readLooseName
  let _ ← run isSpace
  if ← accept ['='] then
    let _ ← run isSpace
    fun text =>
      match readValue text with
      | some (value, rest) => some (some (name, value), rest)
      | none => some (none, text)
  else return none

/-- Reads attributes as long as they can be told apart. -/
def readAttributes : Nat → List (String × String) → Reader (List (String × String))
  | 0, taken => return taken.reverse
  | fuel + 1, taken => fun text =>
    match text with
    | '>' :: _ => some (taken.reverse, text)
    | '/' :: '>' :: _ => some (taken.reverse, text)
    | _ =>
      match readAttribute text with
      | none => some (taken.reverse, text)
      | some (found, rest) =>
        let taken := found.toList ++ taken
        match rest.takeWhile isSpace with
        | [] => some (taken.reverse, rest)
        | _ => readAttributes fuel taken (rest.dropWhile isSpace)

/-- Reads a start tag after its first character: the name without its qualifier, the attributes, and
whether the element stays open. -/
def readStartTag : Reader (String × List (String × String) × Bool) := do
  let name ← Event.readLooseName
  let _ ← run isSpace
  let attributes ← readAttributes ((← ahead).length + 1) []
  let base :=
    match name.toList.dropWhile (· != ':') with
    | _ :: base => String.ofList base
    | [] => name
  if ← accept ['/', '>'] then return (base, attributes, false)
  else if ← accept ['>'] then return (base, attributes, true)
  else return (base, attributes, false)

/-! ### Searching -/

def skipEndTag : Reader Unit := do
  let _ ← run fun c => isNameCharacter c || c == ':'
  let _ ← run isSpace
  let _ ← accept ['>']

/-- Passes over a comment or a processing instruction after its first character, if there is one. -/
def skipMarkup : Reader Bool := do
  if ← accept ['?'] then
    let _ ← Event.readLooseName
    let _ ← upTo ['?', '>']
    return true
  else if ← accept "!--".toList then
    let _ ← upTo "-->".toList
    return true
  else return false

/-- Passes over a character data section after its first character, if there is one. -/
def skipCharacterData : Reader Bool := do
  if ← accept "![CDATA[".toList then
    let _ ← upTo "]]>".toList
    return true
  else return false

/-- Looks at a start tag after its first character: it is the wanted one, or the search goes on
inside or behind the element, but not behind the root. -/
def enter (wanted : String) (next : Nat → Reader (List (String × String))) (depth : Nat) :
    Reader (List (String × String)) := do
  let (name, attributes, stays) ← readStartTag
  if name = wanted then return attributes
  let depth := if stays then depth + 1 else depth
  require (depth > 0)
  next depth

/-- Searches the content of some open elements for a start tag of the given name. -/
def search (wanted : String) : Nat → Nat → Reader (List (String × String))
  | 0, _ => refuse
  | fuel + 1, depth => do
    let _ ← run (· != '<')
    expect ['<']
    if ← accept ['/'] then
      skipEndTag
      require (depth > 1)
      search wanted fuel (depth - 1)
    else if ← skipMarkup then search wanted fuel depth
    else if ← skipCharacterData then search wanted fuel depth
    else if ← accept ['!'] then search wanted fuel depth
    else enter wanted (search wanted fuel) depth

/-- Passes over what may stand before the root element. -/
def skipAside : Reader (Option Unit) := do
  let space ← run isSpace
  if (← ahead).head? == some '<' then
    let text ← ahead
    expect ['<']
    if ← skipMarkup then return some ()
    set text
  return if space.isEmpty then none else some ()

/-- Searches a document for the first start tag of a name and gives its attributes. -/
def find (wanted : String) : Reader (List (String × String)) := do
  let text ← ahead
  let marked ← accept "<?xml".toList
  if marked && (← ahead).head?.any isSpace then
    let _ ← upTo ['>']
  else set text
  let _ ← many skipAside
  if ← accept "<!DOCTYPE".toList then
    let doctype ← Doctype.read
    require !doctype.declaresEntities
    let _ ← many skipAside
  expect ['<']
  enter wanted (search wanted (← ahead).length) 0

/-- The attributes of the first element of a name in a document that may be broken. -/
def find? (wanted : String) (bytes : ByteArray) : Option (List (String × String)) :=
  (find wanted (text bytes)).map (·.1)

end Polyglot.Xml.Recovery
