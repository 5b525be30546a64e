/-!
Writing catalogs. A document lists contexts, and in each of them sources with their translations.
Markup characters of a text are written as entities, so that the text itself can be read back.
-/

namespace Polyglot

/-- A context of a document: its name, and its sources with their translations. -/
structure Section where
  name : String
  phrases : List (String × String)
  deriving DecidableEq, Repr

namespace Catalog

/-- A character of a text as it is written between tags. -/
def escape : Char → List Char
  | '&' => "&amp;".toList
  | '<' => "&lt;".toList
  | '>' => "&gt;".toList
  | c => [c]

def escaped (text : String) : List Char := text.toList.flatMap escape

def writePhrase : String × String → List Char
  | (source, translation) =>
    "    <message>\n        <source>".toList ++ escaped source ++
      "</source>\n        <translation>".toList ++ escaped translation ++
      "</translation>\n    </message>\n".toList

def writeSection (part : Section) : List Char :=
  "<context>\n    <name>".toList ++ escaped part.name ++ "</name>\n".toList ++
    part.phrases.flatMap writePhrase ++ "</context>\n".toList

/-- What stands before the language in a document. -/
def opening : String :=
  "<?xml version=\"1.0\" encoding=\"utf-8\"?>\n<!DOCTYPE TS>\n<TS version=\"2.1\" language=\""

/-- The document of a language. A language is a locale code, which holds no markup. -/
def write (language : String) (parts : List Section) : String :=
  String.ofList <|
    opening.toList ++ language.toList ++ "\">\n".toList ++ parts.flatMap writeSection ++
      "</TS>".toList

end Catalog
end Polyglot
