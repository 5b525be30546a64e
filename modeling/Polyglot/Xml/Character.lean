import Polyglot.Text.Range

/-!
The characters of XML: those that a document may hold, white space, and those of names. Names are
taken without the colon, which separates the parts of a qualified name.
-/

namespace Polyglot.Xml

open Text

def characterTable : Ranges := [
  (0x9, 0xa), (0xd, 0xd), (0x20, 0xd7ff), (0xe000, 0xfffd), (0x10000, 0x10ffff)]

def isCharacter (c : Char) : Bool := characterTable.contains c.toNat

def isSpace (c : Char) : Bool := c == ' ' || c == '\t' || c == '\n' || c == '\r'

/-- The characters outside ASCII that may begin a name. -/
def nameStartTable : Ranges := [
  (0xc0, 0xd6), (0xd8, 0xf6), (0xf8, 0x2ff), (0x370, 0x37d), (0x37f, 0x1fff), (0x200c, 0x200d),
  (0x2070, 0x218f), (0x2c00, 0x2fef), (0x3001, 0xd7ff), (0xf900, 0xfdcf), (0xfdf0, 0xfffd),
  (0x10000, 0xeffff)]

def isNameStart (c : Char) : Bool := c.isAlpha || c == '_' || nameStartTable.contains c.toNat

/-- Further characters outside ASCII that may stand inside a name. -/
def nameTable : Ranges := [(0xb7, 0xb7), (0x300, 0x36f), (0x203f, 0x2040)]

def isNameCharacter (c : Char) : Bool :=
  isNameStart c || c.isDigit || c == '-' || c == '.' || nameTable.contains c.toNat

end Polyglot.Xml
