import Mathlib.Order.Compare
import ScopeScript.Host.Comparison
import ScopeScript.Proofs.Number.Value
set_option autoImplicit false

/-!
# Number: the order of decimals

Decimals are compared digit by digit, and only as far as needed: where the leading digits stand
comes first.  What comes of it is the order of the values, whatever triples they are written as, so
two decimals are equal exactly when their values are.
-/

namespace ScopeScript

/-- At a common place, values are in the order of their coefficients. -/
theorem compares_scaled (m n : ℕ) (place : ℤ) :
    (compare m n).Compares ((m : ℚ) * 10 ^ place) (n * 10 ^ place) := by
  have scale := ten_zpow_pos place
  have order := (compare_iff m n).mp rfl
  cases h : compare m n <;> rw [h] at order
  · exact mul_lt_mul_of_pos_right (by exact_mod_cast order) scale
  · exact congrArg (fun k : ℕ => (k : ℚ) * 10 ^ place) order
  · exact mul_lt_mul_of_pos_right (by exact_mod_cast order) scale

namespace Decimal

/-- The magnitude in units of a place that does not lie before its last digit. -/
theorem magnitude_scaled (d : Decimal) {place : ℤ} (low : place ≤ d.exponent) :
    d.magnitude = (d.coefficient * Nat.pow 10 (d.exponent - place).toNat : ℕ) * 10 ^ place := by
  rw [magnitude, ten_zpow_units low, Nat.cast_mul, mul_assoc]

/-- A leading digit at an earlier place decides. -/
theorem magnitude_lt_of_adjusted {a b : Decimal} (hb : b.coefficient ≠ 0)
    (before : a.adjusted < b.adjusted) : a.magnitude < b.magnitude := by
  calc a.magnitude < 10 ^ (a.adjusted + 1) := a.magnitude_lt
    _ ≤ 10 ^ b.adjusted := zpow_le_zpow_right₀ (by norm_num) (by omega)
    _ ≤ b.magnitude := pow_adjusted_le hb

theorem compares_magnitude {a b : Decimal} (ha : a.coefficient ≠ 0) (hb : b.coefficient ≠ 0) :
    (compareMagnitude a b).Compares a.magnitude b.magnitude := by
  unfold compareMagnitude
  cases leading : Ord.compare a.adjusted b.adjusted with
  | lt => exact magnitude_lt_of_adjusted hb (compare_lt_iff_lt.mp leading)
  | gt => exact magnitude_lt_of_adjusted ha (compare_gt_iff_gt.mp leading)
  | eq =>
    dsimp only
    rw [a.magnitude_scaled (min_le_left _ _), b.magnitude_scaled (min_le_right _ _)]
    exact compares_scaled _ _ _

/-- Decimals are compared by their values. -/
theorem compares_value (a b : Decimal) : (Decimal.compare a b).Compares a.value b.value := by
  have zero : ∀ {d : Decimal}, d.isZero = true → d.value = 0 := fun h =>
    value_of_coefficient_eq_zero (beq_iff_eq.mp h)
  have some_ : ∀ {d : Decimal}, d.isZero = false → d.coefficient ≠ 0 := fun h =>
    beq_eq_false_iff_ne.mp h
  unfold Decimal.compare
  split
  · rename_i ha hb
    exact (zero ha).trans (zero hb).symm
  · rename_i ha hb
    have positive := magnitude_pos (some_ hb)
    rw [zero ha, b.value_eq]
    split
    · exact neg_lt_zero.mpr positive
    · exact positive
  · rename_i ha hb
    have positive := magnitude_pos (some_ ha)
    rw [zero hb, a.value_eq]
    split
    · exact neg_lt_zero.mpr positive
    · exact positive
  · rename_i ha hb
    have positiveA := magnitude_pos (some_ ha)
    have positiveB := magnitude_pos (some_ hb)
    have order := compares_magnitude (some_ ha) (some_ hb)
    have reverse := compares_magnitude (some_ hb) (some_ ha)
    rw [a.value_eq, b.value_eq]
    cases a.negative <;> cases b.negative
    · exact order
    · exact (neg_lt_zero.mpr positiveB).trans positiveA
    · exact (neg_lt_zero.mpr positiveA).trans positiveB
    · cases h : compareMagnitude b a <;> rw [h] at reverse
      · exact neg_lt_neg reverse
      · exact congrArg Neg.neg reverse.symm
      · exact neg_lt_neg reverse

theorem compare_eq_iff {a b : Decimal} : Decimal.compare a b = .eq ↔ a.value = b.value :=
  (compares_value a b).eq_eq

end Decimal

/-- Finite numbers can always be compared, and are equal when their values are. -/
theorem Number.equalOrInvalid_finite (a b : Decimal) :
    equalOrInvalid (.finite a) (.finite b) = .ok (decide (a.value = b.value)) := by
  have : (Decimal.compare a b == .eq) = decide (a.value = b.value) := by
    rw [Bool.eq_iff_iff, beq_iff_eq, decide_eq_true_iff, Decimal.compare_eq_iff]
  simp [equalOrInvalid, Number.equal, isSignaling, order?, this]

end ScopeScript
