/-! IEEE 754 binary64 values as a sign and a magnitude code. Every value is told apart,
both zeros and every NaN included, so that values can be ordered totally. The code is the
exponent and fraction fields read as one number: among finite magnitudes a larger code is a
larger magnitude, and `units` says how large. -/

namespace Makespan

/-- How many codes there are. -/
def Binary64.codeCount : Nat := 0x8000000000000000

structure Binary64 where
  negative : Bool
  /-- The 63 bits below the sign. -/
  code : Nat
  code_lt : code < Binary64.codeCount
  deriving DecidableEq

namespace Binary64

/-- How many codes share an exponent: there are 52 bits for the fraction. -/
def fractionCount : Nat := 0x10000000000000

/-- The code of infinity; larger codes are NaNs. -/
def infinityCode : Nat := 2047 * fractionCount

/-- The first bit of a fraction. It tells a quiet NaN. -/
def quietBit : Nat := 0x8000000000000

/-- A finite magnitude as a multiple of 2^-1074, the smallest positive one. -/
def units (code : Nat) : Nat :=
  if code < fractionCount then code
  else (fractionCount + code % fractionCount) * Nat.pow 2 (code / fractionCount - 1)

def zero : Binary64 := ⟨false, 0, by decide⟩

instance : Inhabited Binary64 := ⟨zero⟩

def infinity (negative : Bool) : Binary64 := ⟨negative, infinityCode, by decide⟩

def nan (negative : Bool) : Binary64 := ⟨negative, infinityCode + quietBit, by decide⟩

def isNaN (x : Binary64) : Bool := infinityCode < x.code

def isInfinite (x : Binary64) : Bool := x.code = infinityCode

def isFinite (x : Binary64) : Bool := x.code < infinityCode

def isZero (x : Binary64) : Bool := x.code = 0

def ofBits (bits : UInt64) : Binary64 :=
  ⟨codeCount ≤ bits.toNat, bits.toNat % codeCount, Nat.mod_lt _ (by decide)⟩

def toBits (x : Binary64) : UInt64 :=
  UInt64.ofNat (if x.negative then codeCount + x.code else x.code)

/-- The place of a value in the total order of all encodings: negative NaNs, negative infinity,
negative numbers, -0, 0, positive numbers, infinity, NaNs. -/
def rank (x : Binary64) : Int :=
  if x.negative then -1 - (x.code : Int) else x.code

/-- The numeric order: the two zeros are equal, and a NaN is not comparable. -/
def lt (x y : Binary64) : Bool :=
  !x.isNaN && !y.isNaN && signed x < signed y
where
  signed (v : Binary64) : Int := if v.negative then -(v.code : Int) else v.code

theorem rank_injective {x y : Binary64} (h : x.rank = y.rank) : x = y := by
  obtain ⟨sx, cx, hx⟩ := x
  obtain ⟨sy, cy, hy⟩ := y
  cases sx <;> cases sy <;> simp only [rank, if_true, Bool.false_eq_true, if_false] at h <;>
    first
    | (obtain rfl : cx = cy := by omega
       rfl)
    | omega

end Binary64

end Makespan
