/-!
Upper case, as far as it can produce an ASCII text. Apart from the ASCII letters, ten characters
have an upper case form made of ASCII letters only; every other character keeps a form outside
ASCII, so it stands for itself here.
-/

namespace Polyglot.Text

/-- The characters outside ASCII whose upper case is a string of ASCII letters. -/
def asciiUpper : List (Char × List Char) := [
  ('ß', ['S', 'S']), ('ı', ['I']), ('ſ', ['S']), ('ﬀ', ['F', 'F']), ('ﬁ', ['F', 'I']),
  ('ﬂ', ['F', 'L']), ('ﬃ', ['F', 'F', 'I']), ('ﬄ', ['F', 'F', 'L']), ('ﬅ', ['S', 'T']),
  ('ﬆ', ['S', 'T'])]

/-- The upper case of one character, exact whenever it lies in ASCII. -/
def upperChar (c : Char) : List Char :=
  if c.toNat < 128 then [c.toUpper] else (asciiUpper.lookup c).getD [c]

def upper (text : List Char) : List Char := text.flatMap upperChar

end Polyglot.Text
