/-!
Character sets: how the bytes of a document stand for its text. Bytes that a character set gives no
meaning make the document unreadable.
-/

namespace Polyglot.Xml

inductive Charset where
  | utf8
  | utf16 (bigEndian : Bool)
  | latin1
  | windows1251
  | ascii
  deriving DecidableEq, Repr

namespace Charset

/-- The names under which a document may declare its character set, in lower case. A document
without a byte order mark cannot be in UTF-16, so that name is missing. -/
def names : List (String × Charset) := [
  ("utf-8", .utf8), ("utf8", .utf8), ("iso-8859-1", .latin1), ("iso8859-1", .latin1),
  ("iso_8859-1", .latin1), ("iso-latin-1", .latin1), ("latin1", .latin1), ("latin-1", .latin1),
  ("l1", .latin1), ("windows-1251", .windows1251), ("cp1251", .windows1251), ("ascii", .ascii),
  ("us-ascii", .ascii)]

def named? (name : List Char) : Option Charset :=
  names.lookup (String.ofList (name.map Char.toLower))

/-- The upper half of Windows-1251; the byte 0x98 stands for nothing and is left at zero. -/
def windows1251Table : List Nat := [
  0x402, 0x403, 0x201a, 0x453, 0x201e, 0x2026, 0x2020, 0x2021, 0x20ac, 0x2030, 0x409, 0x2039, 0x40a,
  0x40c, 0x40b, 0x40f, 0x452, 0x2018, 0x2019, 0x201c, 0x201d, 0x2022, 0x2013, 0x2014, 0, 0x2122,
  0x459, 0x203a, 0x45a, 0x45c, 0x45b, 0x45f, 0xa0, 0x40e, 0x45e, 0x408, 0xa4, 0x490, 0xa6, 0xa7,
  0x401, 0xa9, 0x404, 0xab, 0xac, 0xad, 0xae, 0x407, 0xb0, 0xb1, 0x406, 0x456, 0x491, 0xb5, 0xb6,
  0xb7, 0x451, 0x2116, 0x454, 0xbb, 0x458, 0x405, 0x455, 0x457]

/-- The character of a byte in a character set that has one byte for each. -/
def single? : Charset → UInt8 → Option Char
  | .latin1, byte => some (Char.ofNat byte.toNat)
  | .windows1251, byte =>
    if byte < 0x80 then some (Char.ofNat byte.toNat)
    else if byte < 0xc0 then
      match windows1251Table[byte.toNat - 0x80]? with
      | some 0 => none
      | point => point.map Char.ofNat
    else some (Char.ofNat (byte.toNat - 0xc0 + 0x410))
  | .ascii, byte => if byte < 0x80 then some (Char.ofNat byte.toNat) else none
  | _, _ => none

/-- Joins two bytes to a unit of sixteen bits. -/
def unit (bigEndian : Bool) (a b : UInt8) : Nat :=
  if bigEndian then a.toNat * 256 + b.toNat else b.toNat * 256 + a.toNat

/-- Pairs bytes up to units; a byte may not be left over. -/
def units? (bigEndian : Bool) : List Nat → List UInt8 → Option (List Nat)
  | taken, a :: b :: rest => units? bigEndian (unit bigEndian a b :: taken) rest
  | taken, [] => some taken.reverse
  | _, [_] => none

/-- Joins units to characters: a high and a low surrogate make one character, and neither may stand
alone. -/
def joined? : List Char → List Nat → Option (List Char)
  | taken, high :: rest =>
    if 0xd800 ≤ high ∧ high < 0xdc00 then
      match rest with
      | low :: rest =>
        if 0xdc00 ≤ low ∧ low < 0xe000 then
          joined? (Char.ofNat (0x10000 + (high - 0xd800) * 0x400 + (low - 0xdc00)) :: taken) rest
        else none
      | [] => none
    else if 0xdc00 ≤ high ∧ high < 0xe000 then none
    else joined? (Char.ofNat high :: taken) rest
  | taken, [] => some taken.reverse

def decode? (charset : Charset) (bytes : ByteArray) : Option (List Char) :=
  match charset with
  | .utf8 => (String.fromUTF8? bytes).map String.toList
  | .utf16 bigEndian => (units? bigEndian [] bytes.toList).bind (joined? [])
  | charset => bytes.toList.mapM charset.single?

/-- The character set that a byte order mark gives away, with the length of the mark. -/
def ofMark? (bytes : ByteArray) : Option (Charset × Nat) :=
  match bytes.toList.take 3 with
  | [0xef, 0xbb, 0xbf] => some (.utf8, 3)
  | 0xfe :: 0xff :: _ => some (.utf16 true, 2)
  | 0xff :: 0xfe :: _ => some (.utf16 false, 2)
  | _ => none

end Charset
end Polyglot.Xml
