import Makespan.Binary64.Shortest

/-! How numbers are written. Messages and tables use plain notation, log fields use literals, and
cells have two decimal places. -/

namespace Makespan.Binary64

def signText (x : Binary64) : String :=
  if x.negative then "-" else ""

/-- NaN has no sign in writing; `finite` writes the magnitude of every finite value. -/
def written (x : Binary64) (finite : String) : String :=
  if x.isNaN then "NaN"
  else if x.isInfinite then x.signText ++ "inf"
  else x.signText ++ finite

/-- A decimal without an exponent; an integer has no point. -/
def Decimal.plain (d : Decimal) : String :=
  let digits := Nat.toDigits 10 d.digits
  if 0 ≤ d.exponent then
    String.ofList (digits ++ List.replicate d.exponent.toNat '0')
  else
    let places := (-d.exponent).toNat
    let padded := List.replicate (places + 1 - digits.length) '0' ++ digits
    let whole := padded.length - places
    String.ofList (padded.take whole ++ '.' :: padded.drop whole)

/-- A decimal with one digit before the point and an exponent; a single digit has no point. -/
def Decimal.scientific (d : Decimal) : String :=
  let digits := Nat.toDigits 10 d.digits
  let exponent := d.exponent + (digits.length - 1 : Nat)
  let mantissa := match digits with
    | [] | [_] => digits
    | first :: rest => first :: '.' :: rest
  String.ofList mantissa ++ "e" ++ toString exponent

def magnitude (x : Binary64) : Decimal :=
  if x.isZero then ⟨0, 0⟩ else shortest x.code

/-- The shortest digits that read back, without an exponent. -/
def plain (x : Binary64) : String :=
  x.written x.magnitude.plain

/-- The shortest digits that read back, always with a point or an exponent. The exponent is used
from 10^16 on and, zero apart, below 10^-4. -/
def literal (x : Binary64) : String :=
  let d := x.magnitude
  let places := d.exponent + (Nat.toDigits 10 d.digits).length
  x.written <|
    if !x.isZero && (places ≤ -4 || 16 < places) then d.scientific
    else if 0 ≤ d.exponent then d.plain ++ ".0"
    else d.plain

/-- Two decimal places of the exact value, a half to the even neighbour. -/
def fixed (x : Binary64) : String :=
  x.written (Decimal.plain ⟨roundDiv (units x.code * 100) one, -2⟩)

end Makespan.Binary64
