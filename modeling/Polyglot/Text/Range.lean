/-!
Sets of characters written as ranges of code points. A table lists its ranges in ascending order,
both ends included.
-/

namespace Polyglot.Text

/-- A table of code points: pairs of a first and a last member. -/
abbrev Ranges := List (Nat × Nat)

def Ranges.contains (table : Ranges) (point : Nat) : Bool :=
  table.any fun range => range.1 ≤ point && point ≤ range.2

end Polyglot.Text
