import Mathlib
import Makespan.Binary64.Arithmetic

/-! Sums and quotients of numbers that are not negative. They are numbers again and not negative,
and a sum is at least its first summand, however it is rounded and even where it overflows. -/

namespace Makespan.Binary64

/-- The numeric order: the two zeros are equal, and a NaN is not comparable. -/
def le (x y : Binary64) : Bool :=
  !x.isNaN && !y.isNaN && lt.signed x ≤ lt.signed y

/-- A number that is not below zero. -/
structure NonNegative (x : Binary64) : Prop where
  sign : x.negative = false
  number : x.code ≤ infinityCode

namespace NonNegative

variable {x y : Binary64}

theorem isNaN (h : x.NonNegative) : x.isNaN = false := by
  simpa [Binary64.isNaN] using h.number

theorem rank (h : x.NonNegative) : x.rank = x.code := by simp [Binary64.rank, h.sign]

theorem signed (h : x.NonNegative) : lt.signed x = x.code := by simp [lt.signed, h.sign]

/-- Numbers that are not negative are ordered by rank. -/
theorem le_iff (hx : x.NonNegative) (hy : y.NonNegative) : x.le y = true ↔ x.rank ≤ y.rank := by
  simp [le, hx.isNaN, hy.isNaN, hx.signed, hy.signed, hx.rank, hy.rank]

theorem lt_iff (hx : x.NonNegative) (hy : y.NonNegative) : x.lt y = true ↔ x.rank < y.rank := by
  simp [lt, hx.isNaN, hy.isNaN, hx.signed, hy.signed, hx.rank, hy.rank]

end NonNegative

/-- A finite number above zero. -/
structure Positive (x : Binary64) : Prop where
  sign : x.negative = false
  finite : x.code < infinityCode
  nonzero : x.code ≠ 0

theorem Positive.nonNegative {x : Binary64} (h : x.Positive) : x.NonNegative :=
  ⟨h.sign, h.finite.le⟩

theorem zero_nonNegative : zero.NonNegative := ⟨rfl, Nat.zero_le _⟩

theorem NonNegative.zero_rank_le {x : Binary64} (h : x.NonNegative) : zero.rank ≤ x.rank := by
  rw [zero_nonNegative.rank, h.rank]
  exact_mod_cast Nat.zero_le _

theorem nearest_nonNegative (num den : Nat) : (nearest false num den).NonNegative :=
  ⟨rfl, nearestCode_le num den⟩

theorem infinity_nonNegative : (infinity false).NonNegative := ⟨rfl, le_rfl⟩

theorem ofNat_nonNegative (n : Nat) : (ofNat n).NonNegative := nearest_nonNegative _ _

theorem literal_nonNegative (n : Nat) : (OfNat.ofNat n : Binary64).NonNegative :=
  ofNat_nonNegative n

/-! ## Rounding -/

theorem div_le_roundDiv (num den : Nat) : num / den ≤ roundDiv num den := by
  simp only [roundDiv]
  split
  · exact le_rfl
  · split <;> omega

/-- The code of a natural number of units whose last bits are cut off. -/
def floorCode (n : Nat) : Nat := (n.log2 - 52) * fractionCount + n / 2 ^ (n.log2 - 52)

theorem floorCode_le_nearestCode (n : Nat) : min (floorCode n) infinityCode ≤ nearestCode n 1 := by
  have hd : n / 2 ^ (n.log2 - 52) ≤ roundDiv n (1 * Nat.pow 2 (n.log2 - 52)) := by
    rw [show 1 * Nat.pow 2 (n.log2 - 52) = 2 ^ (n.log2 - 52) from Nat.one_mul _]
    exact div_le_roundDiv n _
  simp only [nearestCode, Nat.div_one, floorCode]
  exact min_le_min_right _ (Nat.add_le_add_left hd _)

/-- A number with bits cut off fills the fraction. -/
theorem fractionCount_le_div {n : Nat} (h : 52 < n.log2) :
    fractionCount ≤ n / 2 ^ (n.log2 - 52) := by
  have hn : n ≠ 0 := by rintro rfl; simp at h
  rw [Nat.le_div_iff_mul_le (by positivity)]
  calc fractionCount * 2 ^ (n.log2 - 52) = 2 ^ (52 + (n.log2 - 52)) := by
        rw [Nat.pow_add]; rfl
    _ = 2 ^ n.log2 := by rw [Nat.add_sub_cancel' h.le]
    _ ≤ n := Nat.log2_self_le hn

theorem le_floorCode_of_normal {e m n : Nat} (hm : m < fractionCount)
    (h : (fractionCount + m) * 2 ^ e ≤ n) : (e + 1) * fractionCount + m ≤ floorCode n := by
  have hcode : (e + 1) * fractionCount + m = e * fractionCount + (fractionCount + m) := by ring
  unfold floorCode
  rcases Nat.lt_trichotomy (n.log2 - 52) e with hs | hs | hs
  · -- so few bits are not enough for the exponent
    have hlog : n.log2 < 52 + e := by omega
    have hpow : 2 ^ (52 + e) ≤ n := by
      refine le_trans ?_ h
      rw [Nat.pow_add]
      exact Nat.mul_le_mul_right _ (Nat.le_add_right fractionCount m)
    have hn : n ≠ 0 := (lt_of_lt_of_le (by positivity) hpow).ne'
    exact absurd ((Nat.log2_lt hn).mp hlog) (not_lt.mpr hpow)
  · have hd : fractionCount + m ≤ n / 2 ^ e := (Nat.le_div_iff_mul_le (by positivity)).mpr h
    rw [hs, hcode]
    exact Nat.add_le_add_left hd _
  · have hfill := fractionCount_le_div (show 52 < n.log2 by omega)
    have hexp : (e + 1) * fractionCount ≤ (n.log2 - 52) * fractionCount :=
      Nat.mul_le_mul_right _ hs
    omega

theorem le_floorCode {c n : Nat} (h : units c ≤ n) : c ≤ floorCode n := by
  unfold units at h
  split at h
  · -- a subnormal number has no exponent and is its own code
    rename_i hc
    by_cases hs : 52 < n.log2
    · have hfill := fractionCount_le_div hs
      unfold floorCode
      omega
    · have h0 : n.log2 - 52 = 0 := by omega
      simpa [floorCode, h0] using h
  · rename_i hc
    have he : 1 ≤ c / fractionCount := (Nat.one_le_div_iff (by decide)).mpr (not_lt.mp hc)
    have hle := le_floorCode_of_normal (Nat.mod_lt c (by decide)) h
    rwa [Nat.sub_add_cancel he, Nat.mul_comm, Nat.div_add_mod] at hle

/-- Rounding to the nearest value does not go below a value that is not above. -/
theorem le_nearestCode {c n : Nat} (hc : c ≤ infinityCode) (h : units c ≤ n) :
    c ≤ nearestCode n 1 :=
  (le_min (le_floorCode h) hc).trans (floorCode_le_nearestCode n)

/-! ## Sums and quotients -/

theorem passNaN_of_nonNegative {x y : Binary64} (hx : x.NonNegative) (hy : y.NonNegative)
    (z : Binary64) : passNaN x y z = z := by simp [passNaN, hx.isNaN, hy.isNaN]

theorem add_eq {x y : Binary64} (hx : x.NonNegative) (hy : y.NonNegative) :
    x + y = if x.isInfinite then x else if y.isInfinite then y
      else nearest false (units x.code + units y.code) 1 := by
  show add x y = _
  rw [add, passNaN_of_nonNegative hx hy]
  simp [hx.sign, hy.sign]

/-- A sum is not below its first summand. -/
theorem NonNegative.add {x y : Binary64} (hx : x.NonNegative) (hy : y.NonNegative) :
    (x + y).NonNegative ∧ x.rank ≤ (x + y).rank := by
  rw [add_eq hx hy]
  split
  · exact ⟨hx, le_rfl⟩
  · split
    · rename_i hi
      rw [hx.rank, hy.rank]
      have hc : y.code = infinityCode := by simpa [isInfinite] using hi
      exact ⟨hy, by rw [hc]; exact_mod_cast hx.number⟩
    · have hn := nearest_nonNegative (units x.code + units y.code) 1
      rw [hx.rank, hn.rank]
      exact ⟨hn, by exact_mod_cast le_nearestCode hx.number (Nat.le_add_right _ _)⟩

theorem NonNegative.div {x y : Binary64} (hx : x.NonNegative) (hy : y.Positive) :
    (x / y).NonNegative := by
  have hi : y.isInfinite = false := by simpa [isInfinite] using hy.finite.ne
  have hz : y.isZero = false := by simpa [isZero] using hy.nonzero
  show (Binary64.div x y).NonNegative
  rw [Binary64.div, passNaN_of_nonNegative hx hy.nonNegative]
  simp only [hx.sign, hy.sign, hi, hz, Bool.false_eq_true, if_false, bne_self_eq_false]
  split
  · exact infinity_nonNegative
  · exact nearest_nonNegative _ _

end Makespan.Binary64
