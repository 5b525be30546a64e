import Polyglot.Catalog
import Polyglot.Catalog.Error
import Polyglot.Config
import Polyglot.Journal
import Polyglot.Placeholder
import Polyglot.Version
import Polyglot.Xml.Recovery

/-!
Reading a catalog from its document. The root element declares the schema version and the language;
contexts of one name are joined; messages that are no longer part of the user interface, and
messages with plural forms, are passed over. Reading stops at the first fault.
-/

namespace Polyglot

open Xml

namespace Catalog

/-- How far reading has come: the contexts so far, and the records that were made on the way. -/
structure Draft where
  contexts : Table (Table Message) := []
  journal : Journal := []
  deriving DecidableEq, Repr

structure Stop where
  draft : Draft
  error : LoadError
  deriving DecidableEq, Repr

/-- The schema version of a catalog is a version, not before the configured minimum, and its major
number is not above the configured maximum. A number with too many digits is no fault of the catalog
in the sense of the others. -/
def checkVersion (config : Config) (locale : String) (declared : Option String) :
    Except LoadError Unit :=
  match declared.getD "" with
  | "" => .error (.catalog ⟨.noVersion, locale, none, none⟩)
  | declared =>
    match Version.parse declared with
    | .error (.malformed _) =>
      .error (.catalog ⟨.invalidVersion declared, locale, none, none⟩)
    | .error (.oversized digits) => .error (.version (.oversized digits))
    | .ok version =>
      match Version.parse config.minVersion with
      | .error fault => .error (.version fault)
      | .ok minimum =>
        if version.before minimum ∨ config.maxMajor < version.major then
          .error (.catalog ⟨.unsupportedVersion declared, locale, none, none⟩)
        else .ok ()

/-- The language of a catalog, if it is declared, is the code of its locale in some spelling. -/
def checkLanguage (locale : String) (declared : Option String) : Except LoadError Unit :=
  match declared.getD "" with
  | "" => .ok ()
  | declared =>
    match normalizeCode declared with
    | .error cause => .error (.catalog ⟨.invalidLanguage cause, locale, none, none⟩)
    | .ok code =>
      if code = locale then .ok ()
      else .error (.catalog ⟨.foreignLanguage declared, locale, none, none⟩)

/-- What a message element says, before anything is checked. -/
structure Item where
  source : String
  plural : Bool
  kind : Option String
  translation : String
  deriving DecidableEq, Repr

/-- The types of translations that are no longer in use. -/
def retiredKinds : List String := ["obsolete", "vanished"]

/-- A message is live when it is part of the user interface and has no plural forms. -/
def Item.isLive (item : Item) : Bool :=
  !item.plural && !item.kind.any retiredKinds.contains

/-- The message of an element; without a source there is none. -/
def item? (element : Node) : Option Item :=
  (element.child? "source").map fun source =>
    let translation := element.child? "translation"
    { source := source.innerText
      plural := element.attribute? "numerus" = some "yes"
      kind := translation.bind (·.attribute? "type")
      translation := translation.elim "" Node.innerText }

/-- The fault in the placeholders of a source and its translation: position zero in either, or
positions of the translation that the source does not have. -/
def placeholderFault? (source translation : String) : Option CatalogFault :=
  let inSource := Placeholder.positions source
  let inTranslation := Placeholder.positions translation
  if inSource.contains 0 ∨ inTranslation.contains 0 then some .zeroPosition
  else
    match inTranslation.filter (!inSource.contains ·) with
    | [] => none
    | stray => some (.strayPositions stray)

def Item.message (item : Item) : Message where
  source := item.source
  text := item.translation
  slots := (Placeholder.positions item.source).length
  finished := item.kind != some "unfinished"

def skipRecord (locale context source : String) : Record :=
  ⟨.debug, .store, s!"Skipping plural message {quoted source} in {locale}/{context}"⟩

/-- Takes a message element into a context of the draft. -/
def readMessage (locale context : String) (draft : Draft) (element : Node) : Except Stop Draft :=
  let stop (fault : CatalogFault) (key : Option String) : Except Stop Draft :=
    .error ⟨draft, .catalog ⟨fault, locale, some context, key⟩⟩
  match item? element with
  | none => stop .noSource none
  | some item =>
    if item.plural then
      .ok { draft with journal := draft.journal ++ [skipRecord locale context item.source] }
    else if !item.isLive then .ok draft
    else
      match placeholderFault? item.source item.translation with
      | some fault => stop fault (some item.source)
      | none =>
        let messages := (draft.contexts.get? context).getD []
        if messages.contains item.source then stop .duplicate (some item.source)
        else
          let messages := messages.put item.source item.message
          .ok { draft with contexts := draft.contexts.put context messages }

def contextText (element : Node) : String := (element.child? "name").elim "" Node.innerText

/-- Takes a context element into the draft. A context is there even if it has no live message. -/
def readContext (locale : String) (draft : Draft) (element : Node) : Except Stop Draft :=
  match normalizeName (contextText element) with
  | .error cause => .error ⟨draft, .catalog ⟨.invalidContext cause, locale, none, none⟩⟩
  | .ok context =>
    let messages := (draft.contexts.get? context).getD []
    let draft := { draft with contexts := draft.contexts.put context messages }
    (element.children "message").foldlM (readMessage locale context) draft

def readRoot (config : Config) (locale : String) (root : Node) : Except Stop Draft := do
  (checkVersion config locale (root.attribute? "version")).mapError (Stop.mk {})
  (checkLanguage locale (root.attribute? "language")).mapError (Stop.mk {})
  (root.children "context").foldlM (readContext locale) {}

/-- The root element of a catalog: the first `TS` element of a document, at any depth. A document
that declares entities is not looked into. -/
def rootOf? (document : Document) : Option Node :=
  if document.doctype.declaresEntities then none else document.root.find? "TS"

/-- A catalog, or why there is none, with the records of reading. -/
structure Reading where
  outcome : Except LoadError Catalog
  journal : Journal

def ofDocument (config : Config) (locale : Locale) (document : Document) : Reading :=
  match rootOf? document with
  | none => ⟨.error (.catalog ⟨.noRoot, locale.code, none, none⟩), []⟩
  | some root =>
    match readRoot config locale.code root with
    | .ok draft => ⟨.ok ⟨locale, draft.contexts⟩, draft.journal⟩
    | .error stop => ⟨.error stop.error, stop.draft.journal⟩

def ofBytes (config : Config) (locale : Locale) (bytes : ByteArray) : Reading :=
  match Document.parse? bytes with
  | none => ⟨.error (.catalog ⟨.malformed, locale.code, none, none⟩), []⟩
  | some document => ofDocument config locale document

/-- Reads the catalog of a locale from a text, which stands for its bytes in UTF-8. -/
def ofText (config : Config) (locale : Locale) (text : String) : Reading :=
  ofBytes config locale text.toUTF8

/-- The language that a catalog file declares, if it is not empty. The file may be broken, as long
as its root element can be made out. -/
def declaredLanguage? (bytes : ByteArray) : Option String :=
  let declared :=
    match Document.parse? bytes with
    | some document => (rootOf? document).bind (·.attribute? "language")
    | none => (Recovery.find? "TS" bytes).bind (·.lookup "language")
  declared.filter (· != "")

end Catalog
end Polyglot
