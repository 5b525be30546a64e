import Polyglot.Text.Printable

/-!
Quoted text, as it stands in messages. Single quotes enclose it, unless it holds a single quote and
no double one; the quote, the backslash and what cannot be shown are escaped.
-/

namespace Polyglot.Text.Quoted

/-- The lowercase hexadecimal digits of a number, padded with zeros to a width. -/
def hex (width number : Nat) : List Char :=
  let digits := Nat.toDigits 16 number
  List.replicate (width - digits.length) '0' ++ digits

/-- The quote that encloses a text: double if the text has a single quote and no double one. -/
def mark (text : List Char) : Char :=
  if text.contains '\'' && !text.contains '"' then '"' else '\''

/-- A character inside the quotes: `\n`, `\r`, `\t` by name, others that cannot be shown by the
shortest of three hexadecimal escapes. -/
def escape (mark c : Char) : List Char :=
  if c = '\\' ∨ c = mark then ['\\', c]
  else if c = '\n' then ['\\', 'n']
  else if c = '\r' then ['\\', 'r']
  else if c = '\t' then ['\\', 't']
  else if isPrintable c then [c]
  else if c.toNat < 0x100 then '\\' :: 'x' :: hex 2 c.toNat
  else if c.toNat < 0x10000 then '\\' :: 'u' :: hex 4 c.toNat
  else '\\' :: 'U' :: hex 8 c.toNat

def encode (text : List Char) : List Char :=
  let quote := mark text
  quote :: text.flatMap (escape quote) ++ [quote]

end Polyglot.Text.Quoted

namespace Polyglot

/-- A text between quotes, for use inside a message. -/
def quoted (text : String) : String := String.ofList (Text.Quoted.encode text.toList)

end Polyglot
