/-!
# Ranges of code points

A character property beyond ASCII is given by the closed ranges of code points that have it.
-/

namespace Checkup.Text

abbrev Ranges := List (Nat × Nat)

def Ranges.covers (ranges : Ranges) (n : Nat) : Bool :=
  ranges.any fun (low, high) => low ≤ n && n ≤ high

end Checkup.Text
