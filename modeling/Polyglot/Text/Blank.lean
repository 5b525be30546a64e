import Polyglot.Text.Range

/-!
White space in the sense of Unicode, with the four information separators. Trimming takes it off
both ends of a text and nothing else.
-/

namespace Polyglot.Text

/-- The white space characters: the ASCII controls from tab to carriage return, the information
separators, and the space separators, line and paragraph separators of Unicode. -/
def blankTable : Ranges := [
  (0x9, 0xd), (0x1c, 0x20), (0x85, 0x85), (0xa0, 0xa0), (0x1680, 0x1680), (0x2000, 0x200a),
  (0x2028, 0x2029), (0x202f, 0x202f), (0x205f, 0x205f), (0x3000, 0x3000)]

def isBlank (c : Char) : Bool := blankTable.contains c.toNat

def trimLeft (text : List Char) : List Char := text.dropWhile isBlank

def trim (text : List Char) : List Char := (trimLeft (trimLeft text).reverse).reverse

end Polyglot.Text
