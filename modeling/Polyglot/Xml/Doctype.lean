import Polyglot.Xml.Node
import Polyglot.Xml.Declaration

/-!
The document type declaration. Its internal subset may declare elements, attributes, notations and
entities. Nothing is validated against it: what matters is that it is well-formed, whether it
declares entities, and which entities the document may refer to.
-/

namespace Polyglot.Xml

open Text Reader

/-- What an entity stands for: a text, something outside the document, or data that is no XML. -/
inductive Entity where
  | internal (text : List Char)
  | external
  | unparsed
  deriving DecidableEq, Repr

/-- What a document type declaration declares. It is partial if further declarations may stand
outside the document. -/
structure Doctype where
  entities : List (String × Entity) := []
  parameters : Bool := false
  outside : Bool := false
  deriving DecidableEq, Repr

namespace Doctype

/-- Some entity is declared, be it for the document or for the declarations themselves. -/
def declaresEntities (doctype : Doctype) : Bool := !doctype.entities.isEmpty || doctype.parameters

def spaces : Reader (List Char) := run isSpace

def spaces1 : Reader (List Char) := run1 isSpace

/-- Reads a literal: anything between quotation marks. -/
def literal (admissible : Char → Bool) : Reader (List Char) := do
  let mark ← Declaration.quote
  let body ← upTo [mark]
  require (body.all admissible)
  return body

/-- The characters of a public identifier. -/
def isPublic (c : Char) : Bool :=
  c.isAlphanum || " \r\n-'()+,./:=?;!*#@$_%".toList.contains c

/-- Reads the identifier of something outside the document, if there is one. The system identifier
may be left out after a public one where the flag allows it. -/
def externalId? (publicAlone : Bool) : Reader Bool := do
  if ← accept "SYSTEM".toList then
    let _ ← spaces1
    let _ ← literal fun _ => true
    return true
  else if ← accept "PUBLIC".toList then
    let _ ← spaces1
    let _ ← literal isPublic
    let text ← ahead
    let space ← spaces
    match ← ahead with
    | '"' :: _ => require !space.isEmpty; let _ ← literal fun _ => true
    | '\'' :: _ => require !space.isEmpty; let _ ← literal fun _ => true
    | _ => require publicAlone; set text
    return true
  else return false

/-! ### Entities -/

/-- Reads an item of the value of an entity. A character reference stands for its character, any
other reference is kept; a percent sign has no place in a value. -/
def valueItem (mark : Char) : Reader (Option (List Char)) := do
  match ← ahead with
  | [] => refuse
  | '%' :: _ => refuse
  | '&' :: '#' :: rest =>
    set rest
    return some [← Event.readCharacterReference]
  | '&' :: rest =>
    set rest
    let entity ← Event.readLooseName
    expect [';']
    return some ('&' :: entity.toList ++ [';'])
  | c :: rest =>
    if c == mark then return none
    set rest
    return some [c]

def entityValue : Reader Entity := do
  let mark ← Declaration.quote
  let items ← many (valueItem mark)
  expect [mark]
  return .internal items.flatten

def entity (doctype : Doctype) : Reader Doctype := do
  let _ ← spaces1
  let text ← ahead
  let parameter ← do
    if ← accept ['%'] then pure (!(← spaces).isEmpty) else pure false
  require (parameter || text.head? != some '%')
  let name ← Event.readPlainName
  let _ ← spaces1
  let value ← do
    if ← externalId? false then
      let space ← spaces
      if ← accept "NDATA".toList then
        require (!parameter && !space.isEmpty)
        let _ ← spaces1
        let _ ← Event.readPlainName
        pure .unparsed
      else pure .external
    else entityValue
  let _ ← spaces
  expect ['>']
  if parameter then return { doctype with parameters := true }
  else if (doctype.entities.lookup name).isSome then return doctype
  else return { doctype with entities := doctype.entities ++ [(name, value)] }

/-! ### Elements, attributes and notations -/

/-- Reads the mark of how often a part of a content model may occur. -/
def occurrence : Reader Unit := do
  let _ ← accept ['?']
  let _ ← accept ['*']
  let _ ← accept ['+']

/-- Reads a content model after its first bracket. The fuel bounds the nesting. -/
def contentModel : Nat → Reader Unit
  | 0 => refuse
  | fuel + 1 => do
    let part : Reader Unit := do
      let _ ← spaces
      if ← accept ['('] then contentModel fuel
      else if ← accept "#PCDATA".toList then pure ()
      else do
        let _ ← Event.readName
        occurrence
      let _ ← spaces
    part
    let _ ← many do
      if ← accept ['|'] then part; return some ()
      else if ← accept [','] then part; return some ()
      else return none
    expect [')']
    occurrence

def element : Reader Unit := do
  let _ ← spaces1
  let _ ← Event.readLooseName
  let _ ← spaces1
  if ← accept "EMPTY".toList then pure ()
  else if ← accept "ANY".toList then pure ()
  else
    expect ['(']
    contentModel 128
  let _ ← spaces
  expect ['>']

/-- Reads names or name tokens between brackets, separated by bars. -/
def enumeration : Reader Unit := do
  expect ['(']
  let token : Reader Unit := do
    let _ ← spaces
    let _ ← run1 fun c => isNameCharacter c || c == ':'
    let _ ← spaces
  token
  let _ ← many do
    if ← accept ['|'] then token; return some () else return none
  expect [')']

def attributeTypes : List String :=
  ["CDATA", "IDREFS", "IDREF", "ID", "ENTITIES", "ENTITY", "NMTOKENS", "NMTOKEN"]

def attributeType : Reader Unit := do
  let text ← ahead
  match attributeTypes.find? fun word => word.toList.isPrefixOf text with
  | some word => expect word.toList
  | none =>
    if ← accept "NOTATION".toList then
      let _ ← spaces1
    enumeration

def attributeDefault : Reader Unit := do
  if ← accept "#REQUIRED".toList then pure ()
  else if ← accept "#IMPLIED".toList then pure ()
  else
    if ← accept "#FIXED".toList then
      let _ ← spaces1
    let _ ← Event.readValue ⟨fun _ => true, fun _ => true⟩

def attributes : Reader Unit := do
  let _ ← spaces1
  let _ ← Event.readLooseName
  let _ ← many do
    let space ← spaces
    if (← ahead).head? == some '>' then return none
    require !space.isEmpty
    let _ ← Event.readLooseName
    let _ ← spaces1
    attributeType
    let _ ← spaces1
    attributeDefault
    return some ()
  expect ['>']

def notationPart : Reader Unit := do
  let _ ← spaces1
  let _ ← Event.readPlainName
  let _ ← spaces1
  require (← externalId? true)
  let _ ← spaces
  expect ['>']

/-! ### The declaration -/

/-- Reads one declaration of the internal subset, or passes over something between declarations. -/
def declaration (doctype : Doctype) : Reader Doctype := do
  if ← accept ['%'] then
    let _ ← Event.readPlainName
    expect [';']
    return { doctype with outside := true }
  else if ← accept "<!ENTITY".toList then entity doctype
  else
    if ← accept "<!ELEMENT".toList then element
    else if ← accept "<!ATTLIST".toList then attributes
    else if ← accept "<!NOTATION".toList then notationPart
    else if ← accept "<!--".toList then let _ ← Event.readComment
    else if ← accept "<?".toList then let _ ← Event.readInstruction
    else let _ ← spaces1
    return doctype

def subset : Nat → Doctype → Reader Doctype
  | 0, _ => refuse
  | fuel + 1, doctype => do
    if ← accept [']'] then return doctype
    subset fuel (← declaration doctype)

def read : Reader Doctype := do
  let _ ← spaces1
  let _ ← Event.readLooseName
  let _ ← spaces
  let outside ← externalId? false
  let _ ← spaces
  let doctype ← do
    if ← accept ['['] then
      let doctype ← subset ((← ahead).length + 1) { outside }
      let _ ← spaces
      pure doctype
    else pure { outside }
  expect ['>']
  return doctype

/-! ### References to entities -/

/-- Grows content inside an open element to the end of a text; the element is the only one open in
the end. -/
def growContent (references : References) : Nat → Growth → Reader Unit
  | 0, _ => refuse
  | fuel + 1, growth => do
    if (← ahead).isEmpty then require (growth.outerFrames.length == 1)
    else
      match growth.step (← Event.read references) with
      | some growth => growContent references fuel growth
      | none => refuse

/-- A text can stand as the content of an element. -/
def isContent (references : References) (text : List Char) : Bool :=
  let root : Frame :=
    { tag := { base := "" }, attributes := [], content := [], scope := Scope.initial }
  (growContent references (text.length + 1) (.within root []) text).isSome

/-- The entities that may be referred to. Each has to stand for content in content, and for a text
without markup in an attribute value; entities nest at most as deep as the fuel allows, which rules
out that one contains itself. -/
def referencesAt (doctype : Doctype) (standalone : Bool) : Nat → References
  | 0 => References.none
  | fuel + 1 =>
    let inner := referencesAt doctype standalone fuel
    let unknown := doctype.outside && !standalone
    { inContent := fun name =>
        match doctype.entities.lookup name with
        | none => unknown
        | some .unparsed => false
        | some .external => true
        | some (.internal text) => isContent inner text
      inValue := fun name =>
        match doctype.entities.lookup name with
        | none => unknown
        | some .unparsed => false
        | some .external => false
        | some (.internal text) =>
          !text.contains '<' && isContent ⟨inner.inValue, inner.inValue⟩ text }

def references (doctype : Doctype) (standalone : Bool) : References :=
  referencesAt doctype standalone (doctype.entities.length + 1)

end Doctype
end Polyglot.Xml
