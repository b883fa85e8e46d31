import Makespan.Binary64.Basic

/-! Arithmetic on binary64 values: each operation takes the exact result as a quotient of
naturals and rounds it once, to the nearest value and to the even code on a tie. A NaN operand
is passed on (the first of two) and made quiet; an operation without a value gives the NaN whose
sign is negative. -/

namespace Makespan.Binary64

/-- The quotient rounded to the nearest natural, a half to the even one. -/
def roundDiv (num den : Nat) : Nat :=
  let q := num / den
  let r := num % den
  if 2 * r < den then q
  else if den < 2 * r then q + 1
  else q + q % 2

/-- The code nearest to `num / den` units. A quotient below 2^53 keeps all its bits, and a larger
one the first 53: a carry out of them lands in the exponent field, where it belongs. -/
def nearestCode (num den : Nat) : Nat :=
  let shift := (num / den).log2 - 52
  min (shift * fractionCount + roundDiv num (den * Nat.pow 2 shift)) infinityCode

theorem nearestCode_le (num den : Nat) : nearestCode num den ≤ infinityCode :=
  Nat.min_le_right _ _

/-- The value nearest to `num / den` units. -/
def nearest (negative : Bool) (num den : Nat) : Binary64 :=
  ⟨negative, nearestCode num den, Nat.lt_of_le_of_lt (nearestCode_le num den) (by decide)⟩

/-- The units in one. -/
def one : Nat := Nat.pow 2 1074

def quieted (x : Binary64) : Binary64 :=
  ⟨x.negative, x.code ||| quietBit, @Nat.or_lt_two_pow x.code quietBit 63 x.code_lt (by decide)⟩

/-- What a binary operation gives where NaNs take part, and otherwise `number`. -/
def passNaN (x y number : Binary64) : Binary64 :=
  if x.isNaN then x.quieted else if y.isNaN then y.quieted else number

def add (x y : Binary64) : Binary64 :=
  passNaN x y <|
    if x.isInfinite then
      if y.isInfinite && x.negative != y.negative then nan true else x
    else if y.isInfinite then y
    else if x.negative = y.negative then
      nearest x.negative (units x.code + units y.code) 1
    else if units x.code = units y.code then zero
    else if units y.code < units x.code then
      nearest x.negative (units x.code - units y.code) 1
    else nearest y.negative (units y.code - units x.code) 1

def mul (x y : Binary64) : Binary64 :=
  let negative := x.negative != y.negative
  passNaN x y <|
    if x.isInfinite || y.isInfinite then
      if x.isZero || y.isZero then nan true else infinity negative
    else nearest negative (units x.code * units y.code) one

def div (x y : Binary64) : Binary64 :=
  let negative := x.negative != y.negative
  passNaN x y <|
    if x.isInfinite then
      if y.isInfinite then nan true else infinity negative
    else if y.isInfinite then nearest negative 0 1
    else if y.isZero then
      if x.isZero then nan true else infinity negative
    else nearest negative (units x.code * one) (units y.code)

instance : Add Binary64 := ⟨add⟩
instance : Mul Binary64 := ⟨mul⟩
instance : Div Binary64 := ⟨div⟩

def ofNat (n : Nat) : Binary64 := nearest false (n * one) 1

instance (n : Nat) : OfNat Binary64 n := ⟨ofNat n⟩

/-- The integer of sign `negative` and magnitude `n`; zero has no sign. -/
def ofInt (n : Int) : Binary64 := nearest (n < 0) (n.natAbs * one) 1

/-- The value nearest to `digits * 10 ^ exponent`. Exponents so far out that the result is
infinite or zero whatever the digits are not carried out. -/
def ofDecimal (negative : Bool) (digits : Nat) (exponent : Int) : Binary64 :=
  let places := (digits.log2 : Int) / 3 + 1
  if digits = 0 ∨ exponent + places < -400 then nearest negative 0 1
  else if 400 < exponent then infinity negative
  else if 0 ≤ exponent then nearest negative (digits * Nat.pow 10 exponent.toNat * one) 1
  else nearest negative (digits * one) (Nat.pow 10 (-exponent).toNat)

/-- The largest number of 64 bits. -/
def largestCount : Nat := 0xffffffffffffffff

/-- Toward zero and into the numbers of 64 bits; a NaN is 0. -/
def truncate (x : Binary64) : Nat :=
  if x.isNaN || x.negative then 0
  else if x.isInfinite then largestCount
  else min (units x.code / one) largestCount

end Makespan.Binary64
