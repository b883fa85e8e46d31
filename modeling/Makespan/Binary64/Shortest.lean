import Makespan.Binary64.Arithmetic

/-! The shortest decimal that reads back as a given binary64 magnitude. A decimal reads back when
it lies between the midpoints to the two neighbouring values, the midpoints included iff the code
is even. If some point of a decimal grid does, so does one of the two grid points around the value
itself: only those are tried, on the grids of 1, 2, … 17 digits. -/

namespace Makespan.Binary64

/-- `digits * 10 ^ exponent`. -/
structure Decimal where
  digits : Nat
  exponent : Int
  deriving DecidableEq

namespace Decimal

/-- The same number without trailing zeros in its digits. -/
def trim (d : Decimal) : Decimal :=
  let rest := (Nat.toDigits 10 d.digits).reverse.takeWhile (· = '0')
  ⟨d.digits / Nat.pow 10 rest.length, d.exponent + rest.length⟩

end Decimal

/-- Whether a magnitude is below `10 ^ places`. -/
def isBelow (code : Nat) (places : Int) : Bool :=
  units code * Nat.pow 10 (-places).toNat < Nat.pow 10 places.toNat * one

/-- How many digits a magnitude has before its decimal point; negative or zero when it is below
one tenth. The binary logarithm gives it up to two: 1233 / 4096 is a little below log 2. -/
def integerPlaces (code : Nat) : Int :=
  let places := (((units code).log2 : Int) - 1074) * 1233 / 4096
  if isBelow code places then places
  else if isBelow code (places + 1) then places + 1
  else places + 2

/-- The grid point with `10 ^ exponent` as its step that reads back as the code: of two, the one
nearer to the value, and the upper one if they are equally near. -/
def readsBack? (code : Nat) (exponent : Int) : Option Nat :=
  let up := Nat.pow 10 (-exponent).toNat
  let step := Nat.pow 10 exponent.toNat * (2 * one)
  let value := 2 * units code * up
  let low := (units (code - 1) + units code) * up
  let high := (units code + units (code + 1)) * up
  let inside (n : Nat) : Bool :=
    if code % 2 = 0 then low ≤ n && n ≤ high else low < n && n < high
  let below := value / step
  let above := below + 1
  match inside (below * step), inside (above * step) with
  | true, true => if value - below * step < above * step - value then some below else some above
  | true, false => some below
  | false, true => some above
  | false, false => none

/-- The shortest decimal that reads back as a finite magnitude. -/
def shortest (code : Nat) : Decimal :=
  let grids := (List.range' 1 17).map fun (n : Nat) => integerPlaces code - n
  let found := grids.findSome? fun exponent =>
    (readsBack? code exponent).map fun digits => Decimal.mk digits exponent
  (found.getD ⟨0, 0⟩).trim

end Makespan.Binary64
