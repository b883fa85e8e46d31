/-! Sets of characters given by ranges of code points, as the Unicode standard tabulates them. -/

namespace Makespan

structure CodePointSet where
  /-- First and last code point of each range, ascending. -/
  ranges : Array (Nat × Nat)

def CodePointSet.contains (s : CodePointSet) (c : Char) : Bool :=
  s.ranges.any fun (first, last) => first ≤ c.toNat && c.toNat ≤ last

end Makespan
