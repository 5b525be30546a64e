/-!
Numbers as they are written, in decimal digits. There is a bound on the digits of a number that is
converted; leading zeros count as well.
-/

namespace Polyglot

/-- A number as it is written. Without digits it is zero. -/
abbrev Numeral := List Char

namespace Numeral

/-- The number of digits up to which numbers are converted. -/
def maxDigits : Nat := 4300

def isOversized (numeral : Numeral) : Bool := maxDigits < numeral.length

/-- The text of the error for a number with too many digits. -/
def oversizedMessage (digits : Nat) : String :=
  s!"Exceeds the limit ({maxDigits} digits) for integer string conversion: value has {digits} " ++
    "digits; use sys.set_int_max_str_digits() to increase the limit"

end Numeral
end Polyglot
