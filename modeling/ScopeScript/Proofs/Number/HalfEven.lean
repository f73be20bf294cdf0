import Mathlib.Data.Rat.Floor
import Mathlib.Tactic.FieldSimp
import Mathlib.Tactic.Linarith
import ScopeScript.Number.Decimal
set_option autoImplicit false

/-!
# Number: the nearest integer

A quotient is rounded to the nearest integer, and to the even one of two that are equally near.
`halfEven` says so for all rational numbers, and `natCast_nearestEven` that the rounding of a
quotient of natural numbers is an instance of it.
-/

namespace ScopeScript

/-! ## The nearest integer -/

/-- The integer is the nearest one, and even if another one is equally near. -/
def IsNearest (x : ℚ) (n : ℤ) : Prop := |x - n| < 1 / 2 ∨ |x - n| = 1 / 2 ∧ Even n

/-- The integer nearest to a number, and the even one of two that are equally near. -/
def halfEven (x : ℚ) : ℤ :=
  if x - ⌊x⌋ < 1 / 2 then ⌊x⌋
  else if 1 / 2 < x - ⌊x⌋ then ⌊x⌋ + 1
  else if Even ⌊x⌋ then ⌊x⌋ else ⌊x⌋ + 1

variable {x y : ℚ} {n m : ℤ}

theorem IsNearest.le (h : IsNearest x n) : |x - n| ≤ 1 / 2 := by
  rcases h with h | ⟨h, -⟩
  · exact h.le
  · exact h.le

theorem isNearest_halfEven (x : ℚ) : IsNearest x (halfEven x) := by
  have low := Int.floor_le x
  have high := Int.lt_floor_add_one x
  unfold halfEven
  split
  · left
    rw [abs_of_nonneg (by linarith)]
    assumption
  · split
    · left
      push_cast
      rw [abs_of_nonpos (by linarith)]
      linarith
    · have tie : x - ⌊x⌋ = 1 / 2 := by linarith
      right
      split
      · rename_i even
        rw [tie]
        exact ⟨by norm_num, even⟩
      · rename_i odd
        push_cast
        rw [← sub_sub, tie]
        exact ⟨by norm_num, Int.even_add_one.mpr odd⟩

/-- There is one such integer. -/
theorem IsNearest.unique (hn : IsNearest x n) (hm : IsNearest x m) : n = m := by
  by_contra different
  have apart : (1 : ℚ) ≤ |(n : ℚ) - m| := by
    have : (1 : ℤ) ≤ |n - m| := Int.one_le_abs (sub_ne_zero.mpr different)
    exact_mod_cast this
  have triangle : |(n : ℚ) - m| ≤ |x - m| + |x - n| := by
    have := abs_sub (x - m) (x - n)
    rwa [sub_sub_sub_cancel_left] at this
  have boundN := hn.le
  have boundM := hm.le
  -- both are half a unit away, so both are even, and they lie next to each other
  have evenN : Even n := by
    rcases hn with h | h
    · linarith
    · exact h.2
  have evenM : Even m := by
    rcases hm with h | h
    · linarith
    · exact h.2
  have close : |n - m| ≤ 1 := by
    have : |(n : ℚ) - m| ≤ 1 := by linarith
    exact_mod_cast this
  obtain ⟨a, rfl⟩ := evenN
  obtain ⟨b, rfl⟩ := evenM
  rw [abs_le] at close
  omega

theorem halfEven_eq_iff : halfEven x = n ↔ IsNearest x n :=
  ⟨fun h => h ▸ isNearest_halfEven x, fun h => (isNearest_halfEven x).unique h⟩

@[simp] theorem halfEven_intCast (n : ℤ) : halfEven (n : ℚ) = n :=
  halfEven_eq_iff.mpr (.inl (by norm_num))

theorem halfEven_neg (x : ℚ) : halfEven (-x) = -halfEven x := by
  rw [halfEven_eq_iff, IsNearest]
  have mirrored : |-x - ((-halfEven x : ℤ) : ℚ)| = |x - halfEven x| := by
    rw [← abs_neg]
    congr 1
    push_cast
    ring
  rw [mirrored, even_neg]
  exact isNearest_halfEven x

theorem halfEven_mono (h : x ≤ y) : halfEven x ≤ halfEven y := by
  by_contra less
  have step : (halfEven y : ℚ) + 1 ≤ halfEven x := by exact_mod_cast not_le.mp less
  have nearX := abs_le.mp (isNearest_halfEven x).le
  have nearY := abs_le.mp (isNearest_halfEven y).le
  have same : x = y := by linarith
  rw [same] at less
  exact less le_rfl

/-- Numbers between the same two multiples of one half are rounded alike. -/
theorem halfEven_congr {c : ℤ} (hx : c < 2 * x ∧ 2 * x < c + 1) (hy : c < 2 * y ∧ 2 * y < c + 1) :
    halfEven x = halfEven y := by
  symm
  rw [halfEven_eq_iff]
  have near := abs_le.mp (isNearest_halfEven x).le
  have low : c < 2 * halfEven x + 1 := by
    have : (c : ℚ) < 2 * halfEven x + 1 := by linarith
    exact_mod_cast this
  have high : 2 * halfEven x < c + 2 := by
    have : (2 * halfEven x : ℚ) < c + 2 := by linarith
    exact_mod_cast this
  have low' : (c : ℚ) ≤ 2 * halfEven x := by exact_mod_cast Int.lt_add_one_iff.mp low
  have high' : (2 * halfEven x : ℚ) ≤ c + 1 := by
    exact_mod_cast Int.lt_add_one_iff.mp (by linarith : 2 * halfEven x < c + 1 + 1)
  left
  rw [abs_lt]
  constructor <;> linarith

/-- A quotient of natural numbers is its whole part and a proper fraction. -/
theorem natCast_div_eq (n : ℕ) {unit : ℕ} (positive : 0 < unit) :
    (n : ℚ) / unit = (n / unit : ℕ) + (n % unit : ℕ) / unit ∧
      ((n % unit : ℕ) : ℚ) / unit < 1 := by
  have unit_pos : (0 : ℚ) < unit := by exact_mod_cast positive
  constructor
  · have parts : (n : ℚ) = unit * (n / unit : ℕ) + (n % unit : ℕ) := by
      exact_mod_cast (Nat.div_add_mod n unit).symm
    rw [div_eq_iff unit_pos.ne', add_mul, div_mul_cancel₀ _ unit_pos.ne', mul_comm]
    exact parts
  · rw [div_lt_one unit_pos]
    exact_mod_cast Nat.mod_lt n positive

/-- Rounding a quotient of natural numbers is rounding the rational number that it is. -/
theorem natCast_nearestEven (n : ℕ) {unit : ℕ} (positive : 0 < unit) :
    (nearestEven n unit : ℤ) = halfEven ((n : ℚ) / unit) := by
  symm
  rw [halfEven_eq_iff]
  have unit_pos : (0 : ℚ) < unit := by exact_mod_cast positive
  obtain ⟨parts, proper⟩ := natCast_div_eq n positive
  have compared : ∀ {a : ℕ}, ((a : ℚ) / unit < 1 / 2 ↔ 2 * a < unit) ∧
      ((a : ℚ) / unit = 1 / 2 ↔ 2 * a = unit) := by
    intro a
    rw [div_lt_div_iff₀ unit_pos two_pos, div_eq_div_iff unit_pos.ne' two_ne_zero, mul_comm (a : ℚ),
      one_mul]
    norm_cast
  have nonneg : (0 : ℚ) ≤ (n % unit : ℕ) / unit := by positivity
  rw [IsNearest, parts]
  unfold nearestEven
  generalize n / unit = quotient
  generalize n % unit = remainder at *
  rcases lt_trichotomy (2 * remainder) unit with below | tie | above
  · have half := compared.1.mpr below
    rw [if_neg (by simp; omega)]
    left
    rw [Int.cast_natCast, add_sub_cancel_left, abs_of_nonneg nonneg]
    exact half
  · have half := compared.2.mpr tie
    right
    by_cases odd : quotient % 2 = 1
    · rw [if_pos (by simp [tie, odd]), half]
      refine ⟨by push_cast; ring_nf; norm_num, ?_⟩
      exact_mod_cast Nat.even_add_one.mpr (Nat.not_even_iff.mpr odd)
    · rw [if_neg (by simp [tie, odd]), half]
      refine ⟨by push_cast; ring_nf; norm_num, ?_⟩
      exact_mod_cast Nat.even_iff.mpr (by omega)
  · have half : (1 : ℚ) / 2 < remainder / unit := by
      refine lt_of_le_of_ne (not_lt.mp (mt compared.1.mp (by omega))) ?_
      exact fun h => absurd (compared.2.mp h.symm) (by omega)
    rw [if_pos (by simp; omega)]
    left
    push_cast
    rw [abs_of_nonpos (by linarith)]
    linarith

end ScopeScript
