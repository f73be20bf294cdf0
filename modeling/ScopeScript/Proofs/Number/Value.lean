import Mathlib.Data.Int.Log
import Mathlib.Data.Rat.Floor
import Mathlib.Tactic.Linarith
import ScopeScript.Proofs.Number.Shown
set_option autoImplicit false

/-!
# Number: the values of decimals

The value of a decimal is its magnitude with its sign.  The leading digit of the magnitude stands
where that of the coefficient does, and a decimal stands for an integer if that is its value.
-/

namespace ScopeScript

variable {x : ℚ}

/-! ## Powers of ten -/

theorem ten_zpow_pos (k : ℤ) : (0 : ℚ) < 10 ^ k := zpow_pos (by norm_num) k

theorem ten_zpow_add (k l : ℤ) : (10 : ℚ) ^ (k + l) = 10 ^ k * 10 ^ l :=
  zpow_add₀ (by norm_num) k l

/-- A unit of one place is some units of a place that is no higher. -/
theorem ten_zpow_units {low high : ℤ} (h : low ≤ high) :
    (10 : ℚ) ^ high = (Nat.pow 10 (high - low).toNat : ℕ) * 10 ^ low := by
  rw [Nat.pow_eq, Nat.cast_pow, Nat.cast_ofNat, ← zpow_natCast, ← ten_zpow_add]
  congr 1
  omega

/-- The place of the leading digit. -/
theorem log_eq {k : ℤ} (low : 10 ^ k ≤ x) (high : x < 10 ^ (k + 1)) : Int.log 10 x = k := by
  have positive : 0 < x := (ten_zpow_pos k).trans_le low
  have atLeast : k ≤ Int.log 10 x :=
    (Int.zpow_le_iff_le_log (by decide) positive).mp (by exact_mod_cast low)
  have atMost : Int.log 10 x < k + 1 :=
    (Int.lt_zpow_iff_log_lt (by decide) positive).mp (by exact_mod_cast high)
  omega

theorem zpow_log_le (positive : 0 < x) : (10 : ℚ) ^ Int.log 10 x ≤ x := by
  exact_mod_cast Int.zpow_log_le_self (b := 10) (by decide) positive

theorem lt_zpow_log (x : ℚ) : x < (10 : ℚ) ^ (Int.log 10 x + 1) := by
  exact_mod_cast Int.lt_zpow_succ_log_self (b := 10) (by decide) x

/-! ## Digits -/

theorem lt_pow_digitCount (n : ℕ) : n < 10 ^ digitCount n :=
  (digitCount_le_iff (digitCount_pos n)).mp le_rfl

theorem lt_digitCount_pow {k : ℕ} (h : 0 < k) : k < digitCount (Nat.pow 10 k) :=
  Nat.lt_of_not_le fun short => lt_irrefl _ ((digitCount_le_iff h).mp short)

theorem pow_digitCount_le {n : ℕ} (h : n ≠ 0) : 10 ^ (digitCount n - 1) ≤ n := by
  have positive := digitCount_pos n
  by_cases one : digitCount n = 1
  · simpa [one, Nat.one_le_iff_ne_zero] using h
  · by_contra less
    have := (digitCount_le_iff (by omega : 0 < digitCount n - 1)).mpr (not_le.mp less)
    omega

namespace Decimal

/-- The value without its sign. -/
def magnitude (d : Decimal) : ℚ := d.coefficient * 10 ^ d.exponent

theorem value_eq (d : Decimal) :
    d.value = if d.negative then -d.magnitude else d.magnitude := by
  have : d.value = (if d.negative then -1 else 1) * d.coefficient * (10 : ℚ) ^ d.exponent := rfl
  rw [this, magnitude]
  split <;> ring

theorem magnitude_nonneg (d : Decimal) : 0 ≤ d.magnitude := by
  have := ten_zpow_pos d.exponent
  unfold magnitude
  positivity

theorem abs_value (d : Decimal) : |d.value| = d.magnitude := by
  rw [value_eq]
  split
  · rw [abs_neg, abs_of_nonneg d.magnitude_nonneg]
  · exact abs_of_nonneg d.magnitude_nonneg

theorem magnitude_pos {d : Decimal} (h : d.coefficient ≠ 0) : 0 < d.magnitude := by
  have := ten_zpow_pos d.exponent
  have : (0 : ℚ) < d.coefficient := by exact_mod_cast Nat.pos_of_ne_zero h
  unfold magnitude
  positivity

/-- Zeros behind the digits do the work of an exponent. -/
theorem value_shift (negative : Bool) (coefficient count : ℕ) (exponent : ℤ) :
    value ⟨negative, coefficient * 10 ^ count, exponent⟩ =
      value ⟨negative, coefficient, exponent + count⟩ := by
  have magnitude : magnitude ⟨negative, coefficient * 10 ^ count, exponent⟩ =
      magnitude ⟨negative, coefficient, exponent + count⟩ := by
    simp only [Decimal.magnitude, ten_zpow_add, zpow_natCast]
    push_cast
    ring
  simp only [value_eq, magnitude]

theorem value_of_coefficient_eq_zero {d : Decimal} (h : d.coefficient = 0) : d.value = 0 := by
  simp [value_eq, magnitude, h]

theorem magnitude_lt (d : Decimal) : d.magnitude < 10 ^ (d.adjusted + 1) := by
  have scale := ten_zpow_pos d.exponent
  rw [adjusted, sub_add_cancel, add_comm, ten_zpow_add, zpow_natCast, magnitude]
  gcongr
  exact_mod_cast lt_pow_digitCount d.coefficient

theorem pow_adjusted_le {d : Decimal} (h : d.coefficient ≠ 0) :
    10 ^ d.adjusted ≤ d.magnitude := by
  have place : d.adjusted = (digitCount d.coefficient - 1 : ℕ) + d.exponent := by
    have := digitCount_pos d.coefficient
    simp only [adjusted]
    omega
  have scale := ten_zpow_pos d.exponent
  rw [place, ten_zpow_add, zpow_natCast, magnitude]
  gcongr
  exact_mod_cast pow_digitCount_le h

/-- The leading digit of a number is that of its coefficient. -/
theorem log_magnitude {d : Decimal} (h : d.coefficient ≠ 0) :
    Int.log 10 d.magnitude = d.adjusted :=
  log_eq (pow_adjusted_le h) d.magnitude_lt

/-- The coefficient with its sign. -/
def units (d : Decimal) : ℤ := if d.negative then -d.coefficient else d.coefficient

theorem value_eq_units (d : Decimal) : d.value = d.units * 10 ^ d.exponent := by
  rw [value_eq, magnitude, units]
  split <;> simp

theorem value_flip (d : Decimal) : d.flip.value = -d.value := by
  have : d.flip.units = -d.units := by
    cases h : d.negative <;> simp [flip, units, h]
  rw [value_eq_units, value_eq_units, this]
  simp [flip]

theorem value_eq_zero_iff {d : Decimal} : d.value = 0 ↔ d.coefficient = 0 := by
  refine ⟨fun h => ?_, value_of_coefficient_eq_zero⟩
  by_contra some_
  have := magnitude_pos some_
  rw [← abs_value, h, abs_zero] at this
  exact this.false

/-! ## Integers -/

theorem value_ofInt (n : ℤ) : (ofInt n).value = n := by
  have units : (ofInt n).units = n := by
    simp only [units, ofInt, decide_eq_true_eq]
    split <;> omega
  rw [value_eq_units, units]
  simp [ofInt]

theorem value_of_nonneg {d : Decimal} (h : 0 ≤ d.exponent) :
    d.value = (d.units * 10 ^ d.exponent.toNat : ℤ) := by
  have power : (10 : ℚ) ^ d.exponent = 10 ^ d.exponent.toNat := by
    conv => lhs; rw [← Int.toNat_of_nonneg h]
    exact zpow_natCast 10 _
  rw [value_eq_units, power]
  push_cast
  rfl

theorem value_eq_intCast_iff {d : Decimal} (h : d.exponent < 0) {n : ℤ} :
    d.value = n ↔ d.units = n * 10 ^ (-d.exponent).toNat := by
  have power : (10 : ℚ) ^ d.exponent * 10 ^ (-d.exponent).toNat = 1 := by
    rw [← zpow_natCast, Int.toNat_of_nonneg (by omega), ← ten_zpow_add, add_neg_cancel, zpow_zero]
  have scale : (0 : ℚ) < 10 ^ (-d.exponent).toNat := by positivity
  rw [← mul_left_inj' scale.ne', value_eq_units, mul_assoc, power, mul_one]
  exact_mod_cast Iff.rfl

theorem natAbs_units (d : Decimal) : d.units.natAbs = d.coefficient := by
  unfold units
  split <;> simp

/-- The integer that a decimal stands for is found, and no other one is. -/
theorem toInt?_eq_some_iff {d : Decimal} {n : ℤ} : d.toInt? = some n ↔ d.value = n := by
  unfold toInt?
  dsimp only
  split
  · rename_i zero
    rw [value_of_coefficient_eq_zero zero, Option.some_inj]
    exact_mod_cast Iff.rfl
  rename_i some_
  split
  · rename_i whole
    have signed : (if d.negative then -((d.coefficient * Nat.pow 10 d.exponent.toNat : ℕ) : ℤ)
        else (d.coefficient * Nat.pow 10 d.exponent.toNat : ℕ)) =
        d.units * 10 ^ d.exponent.toNat := by
      unfold units
      split <;> push_cast [Nat.pow_eq] <;> ring
    rw [value_of_nonneg whole, signed, Option.some_inj]
    exact_mod_cast Iff.rfl
  · rename_i point
    rw [value_eq_intCast_iff (not_le.mp point)]
    generalize (-d.exponent).toNat = places
    have scale : 0 < 10 ^ places := Nat.pow_pos (by decide)
    have multiple : d.units = n * 10 ^ places → d.coefficient = n.natAbs * 10 ^ places := by
      intro h
      rw [← natAbs_units, h, Int.natAbs_mul, Int.natAbs_pow]
      rfl
    split
    · rename_i proper
      -- too few digits for a multiple of that power
      refine iff_of_false (by simp) fun h => some_ ?_
      have small : d.coefficient < 10 ^ places :=
        (digitCount_le_iff ((digitCount_pos _).trans_le proper)).mp proper
      rw [multiple h] at small ⊢
      have none : n.natAbs < 1 := Nat.lt_of_mul_lt_mul_right (by rwa [Nat.one_mul])
      rw [Nat.lt_one_iff.mp none, Nat.zero_mul]
    · split
      · rename_i even
        obtain ⟨quotient, hquotient⟩ := Nat.dvd_of_mod_eq_zero even
        rw [Nat.pow_eq] at hquotient
        rw [Nat.pow_eq, hquotient, Nat.mul_div_cancel_left quotient scale, Option.some_inj]
        have units :
            d.units = (if d.negative then -(quotient : ℤ) else quotient) * 10 ^ places := by
          unfold Decimal.units
          rw [hquotient]
          split <;> push_cast <;> ring
        rw [units]
        exact (mul_left_inj' (by positivity)).symm
      · rename_i odd
        refine iff_of_false (by simp) fun h => odd ?_
        rw [multiple h, Nat.pow_eq, Nat.mul_mod_left]

end Decimal

end ScopeScript
