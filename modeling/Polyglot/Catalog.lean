import Polyglot.Table
import Polyglot.Locale
import Polyglot.Ratio

/-!
Catalogs: the messages of one locale, in contexts, in the order of the document that they were read
from. A message is found under its context and its key, which is its source text.
-/

namespace Polyglot

structure Message where
  source : String
  text : String
  slots : Int := 0
  finished : Bool := true
  deriving DecidableEq, Repr, Inhabited

/-- A message counts as translated when its text is not empty. -/
def Message.isTranslated (message : Message) : Bool := message.text != ""

/-- The messages of a locale by context and key. -/
structure Catalog where
  locale : Locale
  contexts : Table (Table Message)
  deriving DecidableEq, Repr, Inhabited

namespace Catalog

def lookup (catalog : Catalog) (context key : String) : Option Message :=
  (catalog.contexts.get? context).bind (·.get? key)

def contextNames (catalog : Catalog) : List String := catalog.contexts.keys

/-- Every context and key, in catalog order. -/
def keys (catalog : Catalog) : List (String × String) :=
  catalog.contexts.flatMap fun (context, messages) => messages.keys.map (context, ·)

def messages (catalog : Catalog) : List Message :=
  catalog.contexts.flatMap fun (_, messages) => messages.values

/-- The messages without a translation, as pairs of their context and source. -/
def untranslated (catalog : Catalog) : List (String × String) :=
  catalog.contexts.flatMap fun (context, messages) =>
    (messages.values.filter (!·.isTranslated)).map fun message => (context, message.source)

def size (catalog : Catalog) : Nat := catalog.messages.length

def contains (catalog : Catalog) (context key : String) : Bool :=
  (catalog.lookup context key).isSome

/-- The share of the messages that have a translation; an empty catalog is covered in full. -/
def coverage (catalog : Catalog) : Ratio :=
  if catalog.size = 0 then ⟨1, 1⟩
  else ⟨catalog.size - catalog.untranslated.length, catalog.size⟩

def summary (catalog : Catalog) : String :=
  let extent := s!"contexts={catalog.contexts.length}, messages={catalog.size}"
  s!"Catalog(locale={quoted catalog.locale.code}, {extent})"

end Catalog
end Polyglot
