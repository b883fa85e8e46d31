import Makespan.Proofs.Binary64.Order

/-! Larger summands give no smaller sums. A larger magnitude has a larger code, and rounding keeps the
order also where the exponent changes. -/

namespace Makespan.Binary64

/-- A larger code is a larger magnitude. -/
theorem units_mono {c d : Nat} (h : c ≤ d) : units c ≤ units d := by
  unfold units
  by_cases hd : d < fractionCount
  · have hc : c < fractionCount := by omega
    rw [if_pos hc, if_pos hd]
    exact h
  · rw [if_neg hd]
    have hfull : fractionCount ≤ (fractionCount + d % fractionCount) *
        Nat.pow 2 (d / fractionCount - 1) :=
      (Nat.le_add_right _ _).trans (Nat.le_mul_of_pos_right _ (Nat.two_pow_pos _))
    by_cases hc : c < fractionCount
    · rw [if_pos hc]
      exact hc.le.trans hfull
    · rw [if_neg hc]
      have hmod : c % fractionCount < fractionCount := Nat.mod_lt _ (by decide)
      rcases (Nat.div_le_div_right (c := fractionCount) h).eq_or_lt with he | hlt
      · -- one exponent: the fractions decide
        have hcd := Nat.div_add_mod c fractionCount
        have hdd := Nat.div_add_mod d fractionCount
        rw [he] at hcd ⊢
        exact Nat.mul_le_mul_right _ (by omega)
      · -- a larger exponent makes up for any fraction
        have hone : 1 ≤ c / fractionCount := (Nat.one_le_div_iff (by decide)).mpr (not_lt.mp hc)
        calc (fractionCount + c % fractionCount) * 2 ^ (c / fractionCount - 1)
            ≤ (2 * fractionCount) * 2 ^ (c / fractionCount - 1) :=
              Nat.mul_le_mul_right _ (by omega)
          _ = fractionCount * 2 ^ (c / fractionCount - 1 + 1) := by rw [Nat.pow_succ]; ring
          _ ≤ fractionCount * 2 ^ (d / fractionCount - 1) :=
              Nat.mul_le_mul_left _ (Nat.pow_le_pow_right (by decide) (by omega))
          _ ≤ (fractionCount + d % fractionCount) * 2 ^ (d / fractionCount - 1) :=
              Nat.mul_le_mul_right _ (Nat.le_add_right _ _)

/-! ## Rounding -/

theorem roundDiv_le_succ (num den : Nat) : roundDiv num den ≤ num / den + 1 := by
  simp only [roundDiv]
  split
  · omega
  · split <;> omega

theorem roundDiv_mono {m n : Nat} (h : m ≤ n) (den : Nat) : roundDiv m den ≤ roundDiv n den := by
  rcases (Nat.div_le_div_right (c := den) h).eq_or_lt with he | hlt
  · -- one quotient: the remainders decide
    have hm := Nat.div_add_mod m den
    have hn := Nat.div_add_mod n den
    have hr : m % den ≤ n % den := by
      rw [he] at hm
      omega
    simp only [roundDiv, he]
    split_ifs <;> omega
  · exact (roundDiv_le_succ m den).trans (le_trans hlt (div_le_roundDiv n den))

theorem roundDiv_mul {den : Nat} (hd : 0 < den) (k : Nat) : roundDiv (k * den) den = k := by
  simp [roundDiv, Nat.mul_div_cancel _ hd, hd]

/-- Rounding keeps the order. -/
theorem nearestCode_mono {m n : Nat} (h : m ≤ n) : nearestCode m 1 ≤ nearestCode n 1 := by
  simp only [nearestCode, Nat.div_one, Nat.one_mul]
  refine min_le_min_right _ ?_
  have hlog : m.log2 ≤ n.log2 := by
    rw [Nat.log2_eq_log_two, Nat.log2_eq_log_two]
    exact Nat.log_mono_right h
  rcases (Nat.sub_le_sub_right hlog 52).eq_or_lt with he | hlt
  · rw [he]
    exact Nat.add_le_add_left (roundDiv_mono h _) _
  · -- what does not fill the larger exponent rounds to its first code at most
    have hpos : 0 < Nat.pow 2 (m.log2 - 52) := Nat.two_pow_pos _
    have hm : m ≤ 2 * fractionCount * Nat.pow 2 (m.log2 - 52) := by
      have hpow : m < 2 ^ (m.log2 + 1) := Nat.lt_log2_self
      have hexp : 2 ^ (m.log2 + 1) ≤ 2 ^ (53 + (m.log2 - 52)) :=
        Nat.pow_le_pow_right (by decide) (by omega)
      have htwo : 2 ^ (53 + (m.log2 - 52)) = 2 * fractionCount * Nat.pow 2 (m.log2 - 52) :=
        Nat.pow_add 2 53 (m.log2 - 52)
      exact htwo ▸ (hpow.trans_le hexp).le
    have hround := roundDiv_mono hm (Nat.pow 2 (m.log2 - 52))
    rw [roundDiv_mul hpos] at hround
    have hfill : fractionCount ≤ roundDiv n (Nat.pow 2 (n.log2 - 52)) :=
      (fractionCount_le_div (by omega)).trans (div_le_roundDiv n _)
    have hexp : (m.log2 - 52 + 1) * fractionCount ≤ (n.log2 - 52) * fractionCount :=
      Nat.mul_le_mul_right _ hlt
    have hsplit : (m.log2 - 52 + 1) * fractionCount =
        (m.log2 - 52) * fractionCount + fractionCount := Nat.succ_mul _ _
    omega

/-! ## Sums -/

theorem NonNegative.ext {x y : Binary64} (hx : x.NonNegative) (hy : y.NonNegative)
    (h : x.code = y.code) : x = y := by
  refine rank_injective ?_
  rw [hx.rank, hy.rank, h]

theorem NonNegative.add_comm {x y : Binary64} (hx : x.NonNegative) (hy : y.NonNegative) :
    x + y = y + x := by
  rw [add_eq hx hy, add_eq hy hx, Nat.add_comm]
  by_cases hxi : x.isInfinite = true <;> by_cases hyi : y.isInfinite = true <;>
    simp only [hxi, hyi, if_true, if_false, Bool.false_eq_true]
  refine hx.ext hy ?_
  have hxc : x.code = infinityCode := by simpa [isInfinite] using hxi
  have hyc : y.code = infinityCode := by simpa [isInfinite] using hyi
  rw [hxc, hyc]

/-- A sum is not below its second summand. -/
theorem NonNegative.le_add {x y : Binary64} (hx : x.NonNegative) (hy : y.NonNegative) :
    y.rank ≤ (x + y).rank := by
  rw [hx.add_comm hy]
  exact (hy.add hx).2

/-- A larger first summand gives no smaller sum. -/
theorem NonNegative.add_le_add {x x' y : Binary64} (hx : x.NonNegative) (hx' : x'.NonNegative)
    (hy : y.NonNegative) (h : x.rank ≤ x'.rank) : (x + y).rank ≤ (x' + y).rank := by
  have hsum := (hx.add hy).1
  have htop : (x + y).rank ≤ infinityCode := by
    rw [hsum.rank]
    exact_mod_cast hsum.number
  by_cases hi' : x'.isInfinite = true
  · have hc : x'.code = infinityCode := by simpa [isInfinite] using hi'
    rw [add_eq hx' hy, if_pos hi', hx'.rank, hc]
    exact htop
  · by_cases hyi : y.isInfinite = true
    · have hc : y.code = infinityCode := by simpa [isInfinite] using hyi
      rw [add_eq hx' hy, if_neg hi', if_pos hyi, hy.rank, hc]
      exact htop
    · have hcode : x.code ≤ x'.code := by
        rw [hx.rank, hx'.rank] at h
        exact_mod_cast h
      have hi : ¬ x.isInfinite = true := by
        intro hi
        have hc : x.code = infinityCode := by simpa [isInfinite] using hi
        have hc' : x'.code = infinityCode := le_antisymm hx'.number (hc ▸ hcode)
        exact hi' (by simp [isInfinite, hc'])
      rw [add_eq hx hy, if_neg hi, if_neg hyi, add_eq hx' hy, if_neg hi', if_neg hyi,
        (nearest_nonNegative _ _).rank, (nearest_nonNegative _ _).rank]
      exact_mod_cast nearestCode_mono (Nat.add_le_add_right (units_mono hcode) _)

end Makespan.Binary64
