import Mathlib.Algebra.Order.Field.Basic
import Mathlib.Algebra.Order.Field.Rat
import Mathlib.Tactic.Positivity
import Polyglot.Ratio

/-!
Shares as numbers. A share lies between zero and one, and it is one when it is the whole. So it is
with the double that it is rounded to, as long as the whole has fewer than `2 ^ 54` parts; of that
many, all but one are rounded to one.
-/

namespace Polyglot

/-! ### Rounding -/

/-- A rounded quotient is off by one half at most. -/
theorem roundedQuotient_error (n : Nat) {d : Nat} (hd : 0 < d) :
    2 * (roundedQuotient n d * d) ≤ 2 * n + d ∧ 2 * n ≤ 2 * (roundedQuotient n d * d) + d := by
  have hdivision : n / d * d + n % d = n := Nat.div_add_mod' n d
  have hrest : n % d < d := Nat.mod_lt n hd
  have hnext : (n / d + 1) * d = n / d * d + d := Nat.succ_mul _ _
  unfold roundedQuotient
  cases hcompare : compare (2 * (n % d)) d with
  | lt =>
      have hless := Nat.compare_eq_lt.mp hcompare
      simp only
      omega
  | gt =>
      have hmore := Nat.compare_eq_gt.mp hcompare
      simp only
      omega
  | eq =>
      have heven := Nat.compare_eq_eq.mp hcompare
      simp only
      split <;> omega

theorem roundedQuotient_le {n d bound : Nat} (hd : 0 < d) (h : n ≤ bound * d) :
    roundedQuotient n d ≤ bound := by
  by_contra hlt
  have hnext : (bound + 1) * d ≤ roundedQuotient n d * d :=
    Nat.mul_le_mul_right d (Nat.lt_of_not_le hlt)
  have herror := (roundedQuotient_error n hd).1
  rw [Nat.succ_mul] at hnext
  omega

theorem roundedQuotient_lt {n d bound : Nat} (hd : 0 < d) (h : 2 * n + d < 2 * (bound * d)) :
    roundedQuotient n d < bound := by
  by_contra hle
  have hbound : bound * d ≤ roundedQuotient n d * d :=
    Nat.mul_le_mul_right d (Nat.le_of_not_lt hle)
  have herror := (roundedQuotient_error n hd).1
  omega

/-- Rounding changes nothing where there is nothing to round. -/
theorem roundedQuotient_mul (quotient : Nat) {d : Nat} (hd : 0 < d) :
    roundedQuotient (quotient * d) d = quotient := by
  apply Nat.le_antisymm (roundedQuotient_le hd (Nat.le_refl _))
  by_contra hlt
  have hnext : (roundedQuotient (quotient * d) d + 1) * d ≤ quotient * d :=
    Nat.mul_le_mul_right d (Nat.lt_of_not_le hlt)
  have herror := (roundedQuotient_error (quotient * d) hd).2
  rw [Nat.succ_mul] at hnext
  omega

/-! ### Doubles -/

namespace Double

/-- A quotient is rounded once, to a number of bits after the point that depends on its size; for a
quotient below one there are 53 of them or more. -/
theorem exists_ofQuotient {n d : Nat} (hn : n ≠ 0) (h : n ≤ d) :
    ∃ scale, ofQuotient n d = ⟨roundedQuotient (n * 2 ^ scale) d, scale⟩ ∧
      (n < d → 53 ≤ scale) := by
  refine ⟨_, rfl, fun hlt => ?_⟩
  have hlog : n.log2 ≤ d.log2 :=
    (Nat.le_log2 (by omega)).mpr (Nat.le_trans (Nat.log2_self_le hn) h)
  have hscaled : n * 2 ^ 52 < d * 2 ^ 52 := Nat.mul_lt_mul_of_pos_right hlt (by decide)
  by_cases hsame : n.log2 = d.log2
  · have hscale : 52 + d.log2 - n.log2 = 52 := by omega
    simp only [hscale, Nat.pow_eq, if_pos hscaled]
    decide
  · split <;> omega

theorem mantissa_le_of_le {n d : Nat} (hn : n ≠ 0) (h : n ≤ d) :
    (ofQuotient n d).mantissa ≤ 2 ^ (ofQuotient n d).scale := by
  obtain ⟨scale, heq, -⟩ := exists_ofQuotient hn h
  rw [heq]
  apply roundedQuotient_le (by omega)
  rw [Nat.mul_comm]
  exact Nat.mul_le_mul_left _ h

/-- Half of the last bit is less than what is missing from the whole. -/
theorem mantissa_lt_of_lt {n d : Nat} (hn : n ≠ 0) (h : n < d) (hd : d < 2 ^ 54) :
    (ofQuotient n d).mantissa < 2 ^ (ofQuotient n d).scale := by
  obtain ⟨scale, heq, hscale⟩ := exists_ofQuotient hn (Nat.le_of_lt h)
  rw [heq]
  apply roundedQuotient_lt (by omega)
  have hpart : (n + 1) * 2 ^ scale ≤ d * 2 ^ scale := Nat.mul_le_mul_right _ h
  have hbits : 2 ^ 53 ≤ 2 ^ scale := Nat.pow_le_pow_right (by decide) (hscale h)
  rw [Nat.succ_mul] at hpart
  rw [Nat.mul_comm (2 ^ scale) d]
  omega

theorem mantissa_of_eq {n : Nat} (hn : n ≠ 0) :
    (ofQuotient n n).mantissa = 2 ^ (ofQuotient n n).scale := by
  obtain ⟨scale, heq, -⟩ := exists_ofQuotient hn (Nat.le_refl n)
  rw [heq, Nat.mul_comm]
  exact roundedQuotient_mul _ (Nat.pos_of_ne_zero hn)

/-- The number that a double stands for. -/
def value (x : Double) : ℚ := x.mantissa / 2 ^ x.scale

theorem value_nonneg (x : Double) : 0 ≤ x.value := by
  unfold value
  positivity

theorem value_le_one_iff {x : Double} : x.value ≤ 1 ↔ x.mantissa ≤ 2 ^ x.scale := by
  rw [value, div_le_one (by positivity)]
  norm_cast

theorem value_eq_one_iff {x : Double} : x.value = 1 ↔ x.mantissa = 2 ^ x.scale := by
  rw [value, div_eq_one_iff_eq (by positivity)]
  norm_cast

end Double

/-! ### Shares -/

namespace Ratio

/-- The number that a ratio stands for. -/
def value (ratio : Ratio) : ℚ := ratio.part / ratio.whole

/-- A part of a whole that is not empty. -/
structure IsShare (ratio : Ratio) : Prop where
  whole_pos : 0 < ratio.whole
  part_le : ratio.part ≤ ratio.whole

variable {ratio : Ratio}

theorem value_nonneg (ratio : Ratio) : 0 ≤ ratio.value := by
  unfold value
  positivity

theorem IsShare.value_le_one (h : ratio.IsShare) : ratio.value ≤ 1 := by
  have hwhole : (0 : ℚ) < ratio.whole := by exact_mod_cast h.whole_pos
  rw [value, div_le_one hwhole]
  exact_mod_cast h.part_le

theorem IsShare.value_eq_one_iff (h : ratio.IsShare) :
    ratio.value = 1 ↔ ratio.part = ratio.whole := by
  have hwhole : (ratio.whole : ℚ) ≠ 0 := by exact_mod_cast h.whole_pos.ne'
  rw [value, div_eq_one_iff_eq hwhole]
  norm_cast

theorem IsShare.toDouble_le_one (h : ratio.IsShare) : ratio.toDouble.value ≤ 1 := by
  rw [Double.value_le_one_iff, toDouble]
  split
  · decide
  · rename_i hpart
    exact Double.mantissa_le_of_le hpart h.part_le

/-- A share is shown as one only if it is the whole, unless the whole has very many parts. -/
theorem IsShare.toDouble_eq_one_iff (h : ratio.IsShare) (hwhole : ratio.whole < 2 ^ 54) :
    ratio.toDouble.value = 1 ↔ ratio.part = ratio.whole := by
  have hpos := h.whole_pos
  rw [Double.value_eq_one_iff, toDouble]
  split
  · rename_i hpart
    apply iff_of_false (by decide)
    omega
  · rename_i hpart
    constructor
    · intro hone
      by_contra hne
      have hlt := Double.mantissa_lt_of_lt hpart (Nat.lt_of_le_of_ne h.part_le hne) hwhole
      exact absurd hone (Nat.ne_of_lt hlt)
    · intro heq
      rw [← heq]
      exact Double.mantissa_of_eq hpart

/-- With that many parts a share can be shown as one though a part is missing. -/
example : (Ratio.mk (2 ^ 54 - 1) (2 ^ 54)).toDouble = ⟨2 ^ 53, 53⟩ := by decide +kernel

end Ratio
end Polyglot
