/-!
Shares of a whole and how they are shown. A share is computed in double precision: the quotient is
rounded to 53 significant bits, and only then written in decimal. Both roundings go to the nearest
value, and a tie goes to the even one.
-/

namespace Polyglot

/-- The quotient of two numbers, rounded to the nearest whole number, ties to even. -/
def roundedQuotient (n d : Nat) : Nat :=
  let floor := n / d
  match compare (2 * (n % d)) d with
  | .lt => floor
  | .gt => floor + 1
  | .eq => if floor % 2 = 0 then floor else floor + 1

/-- The number `mantissa / 2 ^ scale`. -/
structure Double where
  mantissa : Nat
  scale : Nat
  deriving DecidableEq, Repr

namespace Double

/-- Keeps at most 53 bits of the mantissa. -/
def round (x : Double) : Double :=
  let excess := x.mantissa.log2 - 52
  if excess ≤ x.scale then ⟨roundedQuotient x.mantissa (Nat.pow 2 excess), x.scale - excess⟩
  else ⟨roundedQuotient x.mantissa (Nat.pow 2 excess) * Nat.pow 2 (excess - x.scale), 0⟩

/-- The double nearest to a quotient that is at most one. -/
def ofQuotient (n d : Nat) : Double :=
  let scale := 52 + d.log2 - n.log2
  let scale := if n * Nat.pow 2 scale < d * Nat.pow 2 52 then scale + 1 else scale
  ⟨roundedQuotient (n * Nat.pow 2 scale) d, scale⟩

/-- The product with a whole number, in double precision. -/
def times (x : Double) (factor : Nat) : Double := round ⟨x.mantissa * factor, x.scale⟩

/-- The nearest whole number of units of `1 / unit`. -/
def inUnits (x : Double) (unit : Nat) : Nat :=
  roundedQuotient (x.mantissa * unit) (Nat.pow 2 x.scale)

end Double

structure Ratio where
  part : Nat
  whole : Nat
  deriving DecidableEq, Repr

namespace Ratio

def toDouble (ratio : Ratio) : Double :=
  if ratio.part = 0 then ⟨0, 0⟩ else Double.ofQuotient ratio.part ratio.whole

/-- A text of digits, filled up with zeros in front. -/
def padded (width number : Nat) : String :=
  let digits := toString number
  String.ofList (List.replicate (width - digits.length) '0') ++ digits

def decimal (ratio : Ratio) : String :=
  let millionths := ratio.toDouble.inUnits 1000000
  toString (millionths / 1000000) ++ "." ++ padded 6 (millionths % 1000000)

def percent (ratio : Ratio) : String := toString ((ratio.toDouble.times 100).inUnits 1) ++ "%"

end Ratio
end Polyglot
