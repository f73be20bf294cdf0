import ScopeScript.Number.Arithmetic
import ScopeScript.Proofs.Number.HalfEven
import ScopeScript.Proofs.Number.Value
set_option autoImplicit false

/-!
# Number: rounding to a context

A context has numbers of as many significant digits as its precision, but none finer than its last
decimal place.  A value is rounded to a multiple of the place where its digits end: to the nearest
one, and to the even one of two that are equally near.

`Context.rounds_round` says that rounding a decimal gives the decimal of the rounded value, or an
overflow where that value lies beyond the context.  `InCell.rounded_eq` says when two values are
rounded to the same one.
-/

namespace ScopeScript

variable {x y : ℚ} {n m : ℤ}

/-! ## Rounded values -/

namespace Context

/-- The place at which a value is rounded: where its digits end, or the last place of the context if
that is coarser. -/
def place (ctx : Context) (x : ℚ) : ℤ := max (Int.log 10 |x| - ctx.precision + 1) ctx.tiny

/-- The multiple of that place that is nearest to a value. -/
def rounded (ctx : Context) (x : ℚ) : ℚ := halfEven (x / 10 ^ ctx.place x) * 10 ^ ctx.place x

variable {ctx : Context}

theorem rounded_neg (x : ℚ) : ctx.rounded (-x) = -ctx.rounded x := by
  simp only [rounded, place, abs_neg, neg_div, halfEven_neg, Int.cast_neg, neg_mul]

theorem rounded_signed (negative : Bool) (x : ℚ) :
    ctx.rounded (if negative then -x else x) =
      if negative then -ctx.rounded x else ctx.rounded x := by
  cases negative
  · rfl
  · exact rounded_neg x

theorem rounded_nonneg (h : 0 ≤ x) : 0 ≤ ctx.rounded x := by
  have scale := ten_zpow_pos (ctx.place x)
  have : (0 : ℤ) ≤ halfEven (x / 10 ^ ctx.place x) := by
    have := halfEven_mono (div_nonneg h scale.le)
    rwa [show (0 : ℚ) = ((0 : ℤ) : ℚ) by simp, halfEven_intCast] at this
  have : (0 : ℚ) ≤ (halfEven (x / 10 ^ ctx.place x) : ℤ) := by exact_mod_cast this
  unfold rounded
  positivity

theorem abs_rounded (x : ℚ) : |ctx.rounded x| = ctx.rounded |x| := by
  rcases le_total 0 x with h | h
  · rw [abs_of_nonneg h, abs_of_nonneg (rounded_nonneg h)]
  · rw [abs_of_nonpos h, rounded_neg, abs_of_nonpos]
    have : 0 ≤ ctx.rounded (-x) := rounded_nonneg (neg_nonneg.mpr h)
    rw [rounded_neg] at this
    linarith

@[simp] theorem rounded_zero : ctx.rounded 0 = 0 := by
  rw [rounded, zero_div, show (0 : ℚ) = ((0 : ℤ) : ℚ) by simp, halfEven_intCast]
  simp

/-- A multiple of the place is left as it is. -/
theorem rounded_eq_self {n k : ℤ} (fine : ctx.place (n * 10 ^ k) ≤ k) :
    ctx.rounded (n * 10 ^ k) = n * 10 ^ k := by
  unfold rounded
  generalize ctx.place (n * 10 ^ k) = place at *
  obtain ⟨count, hcount⟩ := Int.eq_ofNat_of_zero_le (sub_nonneg.mpr fine)
  have parts : (10 : ℚ) ^ k = 10 ^ count * 10 ^ place := by
    rw [← zpow_natCast, ← ten_zpow_add, ← hcount, sub_add_cancel]
  have multiple : (n : ℚ) * 10 ^ k / 10 ^ place = ((n * 10 ^ count : ℤ) : ℚ) := by
    rw [div_eq_iff (ten_zpow_pos place).ne', parts]
    push_cast
    ring
  rw [multiple, halfEven_intCast, ← multiple, div_mul_cancel₀ _ (ten_zpow_pos place).ne']

/-- A value that is not below a power of ten is not rounded below it, unless the place is
coarser. -/
theorem le_rounded {k : ℤ} (h : 10 ^ k ≤ x) (fine : ctx.place x ≤ k) : 10 ^ k ≤ ctx.rounded x := by
  obtain ⟨count, hcount⟩ := Int.eq_ofNat_of_zero_le (sub_nonneg.mpr fine)
  have scale := ten_zpow_pos (ctx.place x)
  have parts : (10 : ℚ) ^ k = ((10 ^ count : ℤ) : ℚ) * 10 ^ ctx.place x := by
    push_cast
    rw [← zpow_natCast, ← ten_zpow_add, ← hcount, sub_add_cancel]
  have atLeast : (10 ^ count : ℤ) ≤ halfEven (x / 10 ^ ctx.place x) := by
    rw [← halfEven_intCast (10 ^ count)]
    refine halfEven_mono ((le_div_iff₀ scale).mpr ?_)
    rwa [← parts]
  rw [rounded, parts]
  gcongr

end Context

/-! ## Values that are rounded alike

Between two neighbouring multiples of half a place there is neither a tie nor a power of ten that is
as coarse, so all values there are rounded in the same direction. -/

/-- The value lies strictly between two neighbouring multiples of `5 * 10 ^ k`. -/
def InCell (k m : ℤ) (x : ℚ) : Prop := m * (5 * 10 ^ k) < x ∧ x < (m + 1) * (5 * 10 ^ k)

namespace InCell

variable {k l : ℤ}

theorem lt_iff (h : InCell k m x) : n * (5 * 10 ^ k) < x ↔ n ≤ m := by
  have width : (0 : ℚ) < 5 * 10 ^ k := mul_pos (by norm_num) (ten_zpow_pos k)
  constructor
  · intro less
    have : (n : ℚ) < m + 1 := lt_of_mul_lt_mul_right (less.trans h.2) width.le
    exact Int.lt_add_one_iff.mp (by exact_mod_cast this)
  · intro atMost
    have : (n : ℚ) ≤ m := by exact_mod_cast atMost
    exact (mul_le_mul_of_nonneg_right this width.le).trans_lt h.1

theorem gt_iff (h : InCell k m x) : x < n * (5 * 10 ^ k) ↔ m < n := by
  have width : (0 : ℚ) < 5 * 10 ^ k := mul_pos (by norm_num) (ten_zpow_pos k)
  constructor
  · intro less
    have : (m : ℚ) < n := lt_of_mul_lt_mul_right (h.1.trans less) width.le
    exact_mod_cast this
  · intro more
    have : (m : ℚ) + 1 ≤ n := by exact_mod_cast more
    exact h.2.trans_le (mul_le_mul_of_nonneg_right this width.le)

/-- Half the units of a coarser place are such multiples. -/
theorem exists_multiple (coarse : k < l) : ∃ count : ℤ, 0 < count ∧
    ∀ n : ℤ, (n : ℚ) * (10 ^ l / 2) = ((n * count : ℤ) : ℚ) * (5 * 10 ^ k) := by
  obtain ⟨count, hcount⟩ := Int.eq_ofNat_of_zero_le (by omega : 0 ≤ l - k - 1)
  refine ⟨10 ^ count, by positivity, fun n => ?_⟩
  have parts : (10 : ℚ) ^ l = 10 ^ count * 10 * 10 ^ k := by
    rw [show l = count + 1 + k by omega, ten_zpow_add, ten_zpow_add, zpow_natCast, zpow_one]
  rw [parts]
  push_cast
  ring

variable (hx : InCell k m x) (hy : InCell k m y)
include hx hy

theorem le_pow_iff (coarse : k < l) : 10 ^ l ≤ x ↔ 10 ^ l ≤ y := by
  obtain ⟨count, -, multiple⟩ := exists_multiple coarse
  have power : (10 : ℚ) ^ l = ((2 * count : ℤ) : ℚ) * (5 * 10 ^ k) := by
    rw [← multiple]
    push_cast
    ring
  rw [← not_lt, ← not_lt, power, hx.gt_iff, hy.gt_iff]

/-- The leading digits stand at the same place. -/
theorem log_eq (positive : 1 ≤ m) : Int.log 10 x = Int.log 10 y := by
  have unit : ∀ {z : ℚ}, InCell k m z → 10 ^ k ≤ z := by
    intro z hz
    have := (hz.lt_iff.mpr positive).le
    have scale := ten_zpow_pos k
    push_cast at this
    linarith
  have positiveX : 0 < x := (ten_zpow_pos k).trans_le (unit hx)
  have atLeast : k ≤ Int.log 10 x :=
    (Int.zpow_le_iff_le_log (by decide) positiveX).mp (by exact_mod_cast unit hx)
  symm
  apply ScopeScript.log_eq
  · rcases atLeast.lt_or_eq with coarse | same
    · exact (hx.le_pow_iff hy coarse).mp (zpow_log_le positiveX)
    · exact same ▸ unit hy
  · exact not_le.mp (mt (hx.le_pow_iff hy (by omega)).mpr (not_le.mpr (lt_zpow_log x)))

omit hy in
/-- There is one multiple of half a coarser place that the values of a cell lie behind. -/
theorem between {count : ℤ} (positive : 0 < count)
    (multiple : ∀ n : ℤ, (n : ℚ) * (10 ^ l / 2) = ((n * count : ℤ) : ℚ) * (5 * 10 ^ k)) :
    ((m / count : ℤ) : ℚ) < 2 * (x / 10 ^ l) ∧ 2 * (x / 10 ^ l) < (m / count : ℤ) + 1 := by
  have scale := ten_zpow_pos l
  have halves : 2 * (x / 10 ^ l) = x / (10 ^ l / 2) := by
    field_simp
  rw [halves, lt_div_iff₀ (by positivity), div_lt_iff₀ (by positivity)]
  constructor
  · rw [multiple, hx.lt_iff]
    exact Int.ediv_mul_le m positive.ne'
  · have next := multiple (m / count + 1)
    push_cast at next
    rw [next]
    have := hx.gt_iff (n := (m / count + 1) * count)
    push_cast at this
    rw [this]
    exact Int.lt_ediv_add_one_mul_self m positive

theorem rounded_eq {ctx : Context} (positive : 1 ≤ m) (coarse : k < ctx.place x) :
    ctx.rounded x = ctx.rounded y := by
  have positiveX : 0 < x := by simpa using (hx.lt_iff (n := 0)).mpr (by omega)
  have positiveY : 0 < y := by simpa using (hy.lt_iff (n := 0)).mpr (by omega)
  have place : ctx.place x = ctx.place y := by
    rw [Context.place, Context.place, abs_of_pos positiveX, abs_of_pos positiveY,
      hx.log_eq hy positive]
  obtain ⟨count, count_pos, multiple⟩ := exists_multiple coarse
  rw [Context.rounded, Context.rounded, ← place,
    halfEven_congr (hx.between count_pos multiple) (hy.between count_pos multiple)]

end InCell

/-! ## Rounding decimals -/

/-- What comes of rounding to a number `r`: an overflow if the context does not reach so far, and
otherwise a decimal of that value with no more digits than the precision. -/
inductive Context.Rounds (ctx : Context) (r : ℚ) : Except Signal Decimal → Prop where
  | overflow (beyond : 10 ^ (ctx.greatestExponent + 1) ≤ |r|) : Rounds ctx r (.error .overflow)
  | number {d : Decimal} (within : |r| < 10 ^ (ctx.greatestExponent + 1)) (value : d.value = r)
      (short : digitCount d.coefficient ≤ ctx.precision) : Rounds ctx r (.ok d)

namespace Context

variable {ctx : Context} {d : Decimal}

theorem rounds_checkOverflow (some_ : d.coefficient ≠ 0)
    (short : digitCount d.coefficient ≤ ctx.precision) :
    ctx.Rounds d.value (ctx.checkOverflow d) := by
  unfold checkOverflow
  split
  · rename_i high
    refine .overflow ?_
    rw [d.abs_value]
    refine le_trans ?_ (Decimal.pow_adjusted_le some_)
    exact zpow_le_zpow_right₀ (by norm_num) (by omega)
  · rename_i low
    refine .number ?_ rfl short
    rw [d.abs_value]
    refine d.magnitude_lt.trans_le ?_
    exact zpow_le_zpow_right₀ (by norm_num) (by omega)

theorem lastPlace_eq (some_ : d.coefficient ≠ 0) : ctx.lastPlace d = ctx.place d.value := by
  rw [lastPlace, place, d.abs_value, Decimal.log_magnitude some_, Decimal.adjusted]
  congr 1
  ring

/-- The coefficient that rounding leaves is the number of units of the place. -/
theorem natCast_roundedCoefficient {place : ℤ} (fine : d.exponent < place) :
    (roundedCoefficient d place : ℤ) = halfEven (d.magnitude / 10 ^ place) := by
  unfold roundedCoefficient
  split
  · rename_i below
    have small : d.magnitude / 10 ^ place < 1 / 2 := by
      rw [div_lt_iff₀ (ten_zpow_pos place)]
      have tenth : d.magnitude < 10 ^ (place - 1) :=
        d.magnitude_lt.trans_le
          (zpow_le_zpow_right₀ (by norm_num) (by simp only [Decimal.adjusted]; omega))
      have parts : (10 : ℚ) ^ place = 10 ^ (place - 1) * 10 := by
        rw [← zpow_add_one₀ (by norm_num), sub_add_cancel]
      have scale := ten_zpow_pos (place - 1)
      linarith
    symm
    rw [halfEven_eq_iff]
    left
    have := div_nonneg d.magnitude_nonneg (ten_zpow_pos place).le
    simpa [abs_of_nonneg this] using small
  · have unit : 0 < Nat.pow 10 (place - d.exponent).toNat := Nat.pow_pos (by decide)
    rw [natCast_nearestEven _ unit]
    congr 1
    have scale := ten_zpow_pos d.exponent
    rw [Decimal.magnitude, ten_zpow_units fine.le, mul_div_mul_right _ _ scale.ne']

/-- The decimal that has the sign of another one and some units of a place. -/
theorem value_units {place : ℤ} {coefficient : ℕ}
    (units : (coefficient : ℤ) = halfEven (d.magnitude / 10 ^ place))
    (here : place = ctx.place d.value) :
    Decimal.value { d with coefficient := coefficient, exponent := place } =
      ctx.rounded d.value := by
  have magnitude : (coefficient : ℚ) * 10 ^ place = ctx.rounded d.magnitude := by
    have : ctx.place d.magnitude = place := by
      rw [here, Context.place, Context.place, d.abs_value, abs_of_nonneg d.magnitude_nonneg]
    rw [rounded, this, ← units, Int.cast_natCast]
  rw [d.value_eq, rounded_signed, ← magnitude, Decimal.value_eq]
  rfl

theorem pow_adjusted_le_rounded (some_ : d.coefficient ≠ 0)
    (fine : ctx.lastPlace d ≤ d.adjusted) : 10 ^ d.adjusted ≤ |ctx.rounded d.value| := by
  have place : ctx.place d.magnitude = ctx.lastPlace d := by
    rw [lastPlace_eq some_, Context.place, Context.place, d.abs_value,
      abs_of_nonneg d.magnitude_nonneg]
  rw [abs_rounded, d.abs_value]
  exact le_rounded (Decimal.pow_adjusted_le some_) (place ▸ fine)

/-- Rounding leaves at most one digit too many, and then it is a carry into a power of ten. -/
theorem roundedCoefficient_le (inexact : d.exponent < ctx.lastPlace d) :
    roundedCoefficient d (ctx.lastPlace d) ≤ 10 ^ ctx.precision := by
  have units := natCast_roundedCoefficient inexact
  have reach : d.adjusted + 1 ≤ ctx.precision + ctx.lastPlace d := by
    simp only [lastPlace, Decimal.adjusted]
    omega
  have : (roundedCoefficient d (ctx.lastPlace d) : ℤ) ≤ (10 ^ ctx.precision : ℤ) := by
    rw [units, ← halfEven_intCast (10 ^ ctx.precision)]
    refine halfEven_mono ((div_le_iff₀ (ten_zpow_pos _)).mpr ?_)
    push_cast
    rw [← zpow_natCast, ← ten_zpow_add]
    exact d.magnitude_lt.le.trans (zpow_le_zpow_right₀ (by norm_num) reach)
  exact_mod_cast this

theorem rounds_zero (precise : 1 ≤ ctx.precision) (negative : Bool) (exponent : ℤ) :
    ctx.Rounds 0 (.ok ⟨negative, 0, exponent⟩) := by
  refine .number ?_ (Decimal.value_of_coefficient_eq_zero rfl) ?_
  · rw [abs_zero]
    exact ten_zpow_pos _
  · exact (digitCount_le_iff precise).mpr (Nat.pow_pos (by decide))

/-- Nothing is rounded in a decimal that ends before the last place of the context. -/
theorem rounds_exact (some_ : d.coefficient ≠ 0) (fine : ctx.lastPlace d ≤ d.exponent) :
    ctx.Rounds (ctx.rounded d.value) (ctx.checkOverflow d) := by
  have short : digitCount d.coefficient ≤ ctx.precision := by
    simp only [lastPlace] at fine
    omega
  obtain ⟨n, multiple⟩ : ∃ n : ℤ, d.value = n * 10 ^ d.exponent := by
    refine ⟨if d.negative then -d.coefficient else d.coefficient, ?_⟩
    rw [d.value_eq, Decimal.magnitude]
    split <;> simp
  have same : ctx.rounded d.value = d.value := by
    rw [lastPlace_eq some_, multiple] at fine
    rw [multiple, rounded_eq_self fine]
  rw [same]
  exact rounds_checkOverflow some_ short

/-- A carry leaves a power of ten: one digit less is enough for it at the next place. -/
theorem rounds_carry (precise : 1 ≤ ctx.precision) (negative : Bool) (place : ℤ) {coefficient : ℕ}
    (atMost : coefficient ≤ 10 ^ ctx.precision) (carry : ctx.precision < digitCount coefficient) :
    ctx.Rounds (Decimal.value ⟨negative, coefficient, place⟩)
      (ctx.checkOverflow ⟨negative, coefficient / 10, place + 1⟩) := by
  have full : coefficient = 10 ^ (ctx.precision - 1) * 10 := by
    rw [← Nat.pow_succ, Nat.succ_eq_add_one, Nat.sub_add_cancel precise]
    exact le_antisymm atMost (not_lt.mp (mt (digitCount_le_iff precise).mpr (by omega)))
  have shifted := Decimal.value_shift negative (10 ^ (ctx.precision - 1)) 1 place
  rw [pow_one, ← full, Nat.cast_one] at shifted
  rw [shifted, full, Nat.mul_div_cancel _ (by decide)]
  refine rounds_checkOverflow (Nat.pow_pos (by decide)).ne' ((digitCount_le_iff precise).mpr ?_)
  exact Nat.pow_lt_pow_right (by decide) (Nat.sub_lt precise Nat.one_pos)

/-- So little that nothing is left of it is only lost at the last place that the context has. -/
theorem lastPlace_of_vanished (precise : 1 ≤ ctx.precision) (some_ : d.coefficient ≠ 0)
    (vanished : ctx.rounded d.value = 0) : ctx.lastPlace d = ctx.tiny := by
  have place : ctx.lastPlace d = max (d.adjusted + 1 - ctx.precision) ctx.tiny := by
    simp only [lastPlace, Decimal.adjusted, sub_add_cancel]
  by_contra other
  have : 10 ^ d.adjusted ≤ |ctx.rounded d.value| := pow_adjusted_le_rounded some_ (by omega)
  rw [vanished, abs_zero] at this
  exact absurd (ten_zpow_pos d.adjusted) (not_lt.mpr this)

theorem rounds_inexact (precise : 1 ≤ ctx.precision) (tiny : ctx.tiny ≤ ctx.greatestExponent)
    (some_ : d.coefficient ≠ 0) (inexact : d.exponent < ctx.lastPlace d) :
    ctx.Rounds (ctx.rounded d.value) (ctx.round d) := by
  have units := natCast_roundedCoefficient inexact
  have atMost := roundedCoefficient_le inexact
  have value := value_units units (lastPlace_eq some_)
  have far : ctx.lastPlace d = max (d.adjusted + 1 - ctx.precision) ctx.tiny := by
    simp only [lastPlace, Decimal.adjusted, sub_add_cancel]
  rw [round, if_neg some_]
  dsimp only
  rw [if_pos inexact]
  generalize roundedCoefficient d (ctx.lastPlace d) = coefficient at *
  by_cases high : ctx.greatestExponent < d.adjusted
  · -- the exact value is out of reach already
    rw [checkOverflow, if_pos high]
    refine .overflow (le_trans ?_ (pow_adjusted_le_rounded some_ (by omega)))
    exact zpow_le_zpow_right₀ (by norm_num) (by omega)
  have early : ctx.checkOverflow d = .ok d := if_neg high
  rw [early]
  change ctx.Rounds _ (if _ then _ else _)
  split
  · rename_i carry
    rw [← value]
    exact rounds_carry precise d.negative (ctx.lastPlace d) atMost carry
  · rename_i short
    by_cases none : coefficient = 0
    · subst none
      have vanished : ctx.rounded d.value = 0 := by
        rw [← value]
        exact Decimal.value_of_coefficient_eq_zero rfl
      have last := lastPlace_of_vanished precise some_ vanished
      rw [vanished, checkOverflow, if_neg]
      · exact rounds_zero precise _ _
      · have : digitCount 0 = 1 := rfl
        simp only [Decimal.adjusted, this]
        omega
    · rw [← value]
      exact rounds_checkOverflow none (not_lt.mp short)

/-- Rounding a decimal gives its rounded value, or an overflow where that lies beyond the
context. -/
theorem rounds_round (precise : 1 ≤ ctx.precision)
    (range : ctx.leastExponent ≤ ctx.greatestExponent) (d : Decimal) :
    ctx.Rounds (ctx.rounded d.value) (ctx.round d) := by
  have tiny : ctx.tiny ≤ ctx.greatestExponent := by
    simp only [Context.tiny]
    omega
  by_cases zero : d.coefficient = 0
  · rw [round, if_pos zero, Decimal.value_of_coefficient_eq_zero zero, rounded_zero]
    obtain ⟨negative, coefficient, exponent⟩ := d
    cases zero
    exact rounds_zero precise _ _
  · rcases lt_or_ge d.exponent (ctx.lastPlace d) with inexact | fine
    · exact rounds_inexact precise tiny zero inexact
    · rw [round, if_neg zero]
      dsimp only
      rw [if_neg fine.not_gt]
      exact rounds_exact zero fine

end Context

end ScopeScript
