import Mathlib.Tactic.LinearCombination
import ScopeScript.Eval.Operator
import ScopeScript.Proofs.Number.Rounding
set_option autoImplicit false

/-!
# Eval: correctly rounded arithmetic

Sums and quotients are not formed exactly: of a summand that is too small to matter there is only a
trace, and of a quotient one digit more than the precision.  What is formed rounds like the exact
result, and so every arithmetic operator gives the exact result, rounded once.
-/

namespace ScopeScript

variable {ctx : Context} {x y : ℚ} {k : ℤ}

namespace Context

/-! ## Sums -/

theorem units_addAligned (a b : Decimal) : (addAligned a b).units = a.units + b.units := by
  obtain ⟨signA, coefficientA, exponentA⟩ := a
  obtain ⟨signB, coefficientB, exponentB⟩ := b
  unfold addAligned Decimal.units
  cases signA <;> cases signB
  all_goals
    simp only [reduceCtorEq, if_true, if_false]
    grind

theorem exponent_addAligned {a b : Decimal} (same : a.exponent = b.exponent) :
    (addAligned a b).exponent = a.exponent := by
  unfold addAligned
  split_ifs
  all_goals first | rfl | exact same.symm

theorem value_addAligned {a b : Decimal} (same : a.exponent = b.exponent) :
    (addAligned a b).value = a.value + b.value := by
  rw [Decimal.value_eq_units, exponent_addAligned same, units_addAligned, a.value_eq_units,
    b.value_eq_units, ← same]
  push_cast
  ring

/-- Zeros behind the digits of a decimal do not change its value. -/
theorem value_lower (d : Decimal) {place : ℤ} (low : place ≤ d.exponent) :
    Decimal.value { d with
      coefficient := d.coefficient * Nat.pow 10 (d.exponent - place).toNat
      exponent := place } = d.value := by
  rw [Nat.pow_eq, Decimal.value_shift, Int.toNat_of_nonneg (sub_nonneg.mpr low),
    add_sub_cancel]

theorem value_addZero (d : Decimal) (exponent : ℤ) : (ctx.addZero d exponent).value = d.value :=
  value_lower d (by omega)

/-- A summand below every place that matters may be any other one. -/
theorem rounded_add_small {n : ℤ} {s t : ℚ} (positive : 1 ≤ n) (hs : 0 < s ∧ s ≤ 10 ^ k)
    (ht : 0 < t ∧ t ≤ 10 ^ k) (coarse : k < ctx.place (n * 10 ^ (k + 1) + s)) :
    ctx.rounded (n * 10 ^ (k + 1) + s) = ctx.rounded (n * 10 ^ (k + 1) + t) := by
  have cell : ∀ {z : ℚ}, 0 < z ∧ z ≤ 10 ^ k → InCell k (2 * n) (n * 10 ^ (k + 1) + z) := by
    intro z hz
    rw [InCell, ten_zpow_add]
    push_cast
    constructor <;> linarith
  exact (cell hs).rounded_eq (cell ht) (by omega) coarse

theorem rounded_sub_small {n : ℤ} {s t : ℚ} (positive : 1 ≤ n) (hs : 0 < s ∧ s ≤ 10 ^ k)
    (ht : 0 < t ∧ t ≤ 10 ^ k) (coarse : k < ctx.place (n * 10 ^ (k + 1) - s)) :
    ctx.rounded (n * 10 ^ (k + 1) - s) = ctx.rounded (n * 10 ^ (k + 1) - t) := by
  have cell : ∀ {z : ℚ}, 0 < z ∧ z ≤ 10 ^ k → InCell k (2 * n - 1) (n * 10 ^ (k + 1) - z) := by
    intro z hz
    rw [InCell, ten_zpow_add]
    push_cast
    constructor <;> linarith
  exact (cell hs).rounded_eq (cell ht) (by omega) coarse

/-- A value is not rounded at a place that lies by more than the precision behind its leading
digit. -/
theorem lt_place {l : ℤ} (h : 10 ^ l ≤ x) (far : k + ctx.precision ≤ l) : k < ctx.place x := by
  have positive : 0 < x := (ten_zpow_pos l).trans_le h
  have : l ≤ Int.log 10 x :=
    (Int.zpow_le_iff_le_log (by decide) positive).mp (by exact_mod_cast h)
  rw [place, abs_of_pos positive]
  omega

/-- Of a summand that lies below every place that matters, the sign is all that counts. -/
theorem rounded_raised {high low : Decimal} (hh : high.coefficient ≠ 0)
    (hl : low.coefficient ≠ 0) (before : k < high.exponent)
    (far : k + ctx.precision < high.adjusted) (below : low.adjusted < k) :
    ctx.rounded (high.value + Decimal.value { low with coefficient := 1, exponent := k }) =
      ctx.rounded (high.value + low.value) := by
  obtain ⟨n, positive, multiple⟩ : ∃ n : ℤ, 1 ≤ n ∧ high.magnitude = n * 10 ^ (k + 1) := by
    obtain ⟨count, hcount⟩ := Int.eq_ofNat_of_zero_le (by omega : 0 ≤ high.exponent - (k + 1))
    refine ⟨high.coefficient * 10 ^ count, ?_, ?_⟩
    · have : 0 < high.coefficient * 10 ^ count := by positivity
      exact_mod_cast this
    · rw [Decimal.magnitude, show high.exponent = count + (k + 1) by omega, ten_zpow_add,
        zpow_natCast]
      push_cast
      ring
  have scale := ten_zpow_pos k
  have small : 0 < low.magnitude ∧ low.magnitude ≤ 10 ^ k :=
    ⟨Decimal.magnitude_pos hl,
      low.magnitude_lt.le.trans (zpow_le_zpow_right₀ (by norm_num) (by omega))⟩
  have trace : Decimal.magnitude { low with coefficient := 1, exponent := k } = 10 ^ k := by
    simp [Decimal.magnitude]
  -- the leading digit stays where it is, or moves back by one place
  have leading : (10 : ℚ) ^ (high.adjusted - 1) * 10 ≤ high.magnitude := by
    rw [← zpow_add_one₀ (by norm_num), sub_add_cancel]
    exact Decimal.pow_adjusted_le hh
  have apart : (10 : ℚ) ^ k ≤ 10 ^ (high.adjusted - 1) :=
    zpow_le_zpow_right₀ (by norm_num) (by omega)
  have sum :
      ctx.rounded (high.magnitude + 10 ^ k) = ctx.rounded (high.magnitude + low.magnitude) := by
    rw [multiple] at leading ⊢
    exact rounded_add_small positive ⟨scale, le_rfl⟩ small
      (lt_place (l := high.adjusted - 1) (by linarith) (by omega))
  have difference :
      ctx.rounded (high.magnitude - 10 ^ k) = ctx.rounded (high.magnitude - low.magnitude) := by
    rw [multiple] at leading ⊢
    exact rounded_sub_small positive ⟨scale, le_rfl⟩ small
      (lt_place (l := high.adjusted - 1) (by linarith) (by omega))
  rw [high.value_eq, low.value_eq, Decimal.value_eq, trace]
  dsimp only
  cases high.negative <;> cases low.negative
  · exact sum
  · simpa only [if_true, Bool.false_eq_true, if_false, ← sub_eq_add_neg] using difference
  · simp only [if_true, Bool.false_eq_true, if_false, neg_add_eq_sub,
      ← neg_sub high.magnitude, rounded_neg, difference]
  · simp only [if_true, ← neg_add, rounded_neg, sum]

/-- Two decimals brought to one exponent have a sum that rounds like the exact one. -/
theorem rounded_align {high low : Decimal} (hh : high.coefficient ≠ 0) (hl : low.coefficient ≠ 0)
    (order : low.exponent ≤ high.exponent) :
    ctx.rounded (addAligned (ctx.align high low).1 (ctx.align high low).2).value =
      ctx.rounded (high.value + low.value) := by
  have digits := digitCount_pos high.coefficient
  rw [align, raiseTo]
  generalize hplace :
    high.exponent + min (-1) ((digitCount high.coefficient : ℤ) - ctx.precision - 2) = place
  dsimp only
  split
  · rename_i below
    rw [value_addAligned (by rfl), value_lower high (by dsimp only; omega)]
    exact rounded_raised hh hl (by omega) (by simp only [Decimal.adjusted]; omega) below
  · rw [value_addAligned (by rfl), value_lower high order]

theorem rounded_sum (a b : Decimal) :
    ctx.rounded (ctx.sum a b).value = ctx.rounded (a.value + b.value) := by
  have zero : ∀ {d : Decimal}, d.isZero = true → d.value = 0 := fun h =>
    Decimal.value_of_coefficient_eq_zero (beq_iff_eq.mp h)
  unfold sum
  dsimp only
  split
  · rename_i ha hb
    rw [zero ha, zero hb, add_zero, Decimal.value_of_coefficient_eq_zero rfl]
  · rename_i ha hb
    rw [value_addZero, zero ha, zero_add]
  · rename_i ha hb
    rw [value_addZero, zero hb, add_zero]
  · rename_i ha hb
    have ha : a.coefficient ≠ 0 := beq_eq_false_iff_ne.mp ha
    have hb : b.coefficient ≠ 0 := beq_eq_false_iff_ne.mp hb
    have cleared : ∀ {total : Decimal} {exponent : ℤ},
        (if total.isZero then { total with exponent := exponent } else total).value =
          total.value := by
      intro total exponent
      split
      · rename_i h
        rw [zero h, zero]
        exact h
      · rfl
    rw [cleared]
    split
    · rename_i order
      rw [rounded_align hb ha order.le, add_comm]
    · rename_i order
      exact rounded_align ha hb (not_lt.mp order)

/-! ## Products and quotients -/

theorem value_product (a b : Decimal) : (product a b).value = a.value * b.value := by
  have units : (product a b).units = a.units * b.units := by
    cases ha : a.negative <;> cases hb : b.negative <;> simp [product, Decimal.units, ha, hb]
  rw [Decimal.value_eq_units, units, a.value_eq_units, b.value_eq_units, product, ten_zpow_add]
  push_cast
  ring

/-- The dropped zeros are made up for by as many tens. -/
theorem dropZeros_mul (most n : ℕ) : (dropZeros most n).1 * 10 ^ (dropZeros most n).2 = n := by
  induction most generalizing n with
  | zero => simp [dropZeros]
  | succ most ih =>
    rw [dropZeros]
    split
    · rename_i tens
      have := ih (n / 10)
      dsimp only
      rw [Nat.pow_succ, ← Nat.mul_assoc, this, Nat.div_mul_cancel (Nat.dvd_of_mod_eq_zero tens)]
    · simp

/-- A number that lies behind enough digits rounds like the next number of digits, whatever comes
behind them, if a last digit that could be taken for a tie is moved. -/
theorem rounded_digits {q : ℕ} (precise : 1 ≤ ctx.precision) (enough : 10 ^ ctx.precision ≤ q)
    (low : q * 10 ^ k < x) (high : x < (q + 1) * 10 ^ k) :
    ctx.rounded ((if q % 5 = 0 then q + 1 else q : ℕ) * 10 ^ k) = ctx.rounded x := by
  have scale := ten_zpow_pos k
  obtain ⟨m, digit, hq, hdigit⟩ : ∃ m digit : ℕ, q = 5 * m + digit ∧ digit < 5 :=
    ⟨q / 5, q % 5, (Nat.div_add_mod q 5).symm, Nat.mod_lt q (by decide)⟩
  have positive : 1 ≤ m := by
    have : 10 ^ 1 ≤ 10 ^ ctx.precision := Nat.pow_le_pow_right (by decide) precise
    omega
  have behind : InCell k m x := by
    have : (digit : ℚ) + 1 ≤ 5 := by exact_mod_cast hdigit
    have : (0 : ℚ) ≤ digit := by positivity
    subst hq
    push_cast at low high
    constructor <;> push_cast <;> nlinarith
  have moved : InCell k m ((if q % 5 = 0 then q + 1 else q : ℕ) * 10 ^ k) := by
    generalize hmoved : (if q % 5 = 0 then q + 1 else q) = moved
    have below : (m : ℚ) * 5 < moved := by
      have : m * 5 < moved := by split at hmoved <;> omega
      exact_mod_cast this
    have above : (moved : ℚ) < (m + 1) * 5 := by
      have : moved < (m + 1) * 5 := by split at hmoved <;> omega
      exact_mod_cast this
    rw [InCell, ← mul_assoc, ← mul_assoc]
    exact ⟨mul_lt_mul_of_pos_right (by exact_mod_cast below) scale,
      mul_lt_mul_of_pos_right (by exact_mod_cast above) scale⟩
  refine (behind.rounded_eq moved (by exact_mod_cast positive) (lt_place ?_ le_rfl)).symm
  rw [add_comm, ten_zpow_add, zpow_natCast]
  refine le_trans ?_ low.le
  gcongr
  exact_mod_cast enough

theorem value_div (a b : Decimal) :
    a.value / b.value = if a.negative != b.negative then -(a.magnitude / b.magnitude)
      else a.magnitude / b.magnitude := by
  rw [a.value_eq, b.value_eq]
  cases a.negative <;> cases b.negative <;> simp [neg_div, div_neg]

/-- Zeros are put behind the dividend or behind the divisor. -/
theorem magnitude_div (a : Decimal) {b : Decimal} (hb : b.coefficient ≠ 0) (shift : ℤ) :
    a.magnitude / b.magnitude =
      ((a.coefficient * 10 ^ shift.toNat : ℕ) : ℚ) / (b.coefficient * 10 ^ (-shift).toNat : ℕ) *
        10 ^ (a.exponent - b.exponent - shift) := by
  have nonzero : (b.coefficient : ℚ) ≠ 0 := by exact_mod_cast hb
  have powers : (10 : ℚ) ^ a.exponent * 10 ^ (-shift).toNat =
      10 ^ shift.toNat * 10 ^ (a.exponent - b.exponent - shift) * 10 ^ b.exponent := by
    rw [← zpow_natCast, ← zpow_natCast, ← ten_zpow_add, ← ten_zpow_add, ← ten_zpow_add]
    congr 1
    omega
  have scale := ten_zpow_pos b.exponent
  rw [Decimal.magnitude, Decimal.magnitude, div_mul_eq_mul_div, div_eq_div_iff (by positivity)
    (by positivity)]
  push_cast
  linear_combination (a.coefficient * b.coefficient : ℚ) * powers

/-- The dividend has enough digits for all the digits of the quotient that count. -/
theorem enough_digits {a b : ℕ} {shift : ℤ} (ha : a ≠ 0) (hb : b ≠ 0)
    (hshift : shift = (digitCount b : ℤ) - digitCount a + ctx.precision + 1) :
    10 ^ ctx.precision ≤ a * 10 ^ shift.toNat / (b * 10 ^ (-shift).toNat) := by
  have digitsA := digitCount_pos a
  rw [Nat.le_div_iff_mul_le (by positivity)]
  calc 10 ^ ctx.precision * (b * 10 ^ (-shift).toNat)
      ≤ 10 ^ ctx.precision * (10 ^ digitCount b * 10 ^ (-shift).toNat) := by
        gcongr
        exact (lt_pow_digitCount b).le
    _ = 10 ^ (digitCount a - 1) * 10 ^ shift.toNat := by
        rw [← Nat.pow_add, ← Nat.pow_add, ← Nat.pow_add]
        congr 1
        omega
    _ ≤ a * 10 ^ shift.toNat := by
        gcongr
        exact pow_digitCount_le ha

theorem rounded_quotient (precise : 1 ≤ ctx.precision) (a : Decimal) {b : Decimal}
    (hb : b.coefficient ≠ 0) :
    ctx.rounded (ctx.quotient a b).value = ctx.rounded (a.value / b.value) := by
  suffices h : (ctx.quotient a b).negative = (a.negative != b.negative) ∧
      ctx.rounded (ctx.quotient a b).magnitude = ctx.rounded (a.magnitude / b.magnitude) by
    rw [Decimal.value_eq, value_div, rounded_signed, rounded_signed, h.1, h.2]
  unfold quotient
  dsimp only
  split
  · rename_i ha
    simp [Decimal.magnitude, ha]
  rename_i ha
  generalize hshift :
    (digitCount b.coefficient : ℤ) - digitCount a.coefficient + ctx.precision + 1 = shift
  have enough := enough_digits ha hb hshift.symm
  have divisor_pos : 0 < b.coefficient * 10 ^ (-shift).toNat := by positivity
  rw [magnitude_div a hb shift]
  simp only [Nat.pow_eq]
  generalize a.coefficient * 10 ^ shift.toNat = dividend at *
  generalize b.coefficient * 10 ^ (-shift).toNat = divisor at *
  have scale := ten_zpow_pos (a.exponent - b.exponent - shift)
  split
  · rename_i whole
    refine ⟨rfl, ?_⟩
    obtain ⟨q, rfl⟩ := Nat.dvd_of_mod_eq_zero whole
    have digits : ((divisor * q : ℕ) : ℚ) / divisor = q := by
      push_cast
      field_simp
    rw [digits, Nat.mul_div_cancel_left q divisor_pos]
    conv => rhs; rw [← dropZeros_mul shift.toNat q]
    rw [Decimal.magnitude, ten_zpow_add, zpow_natCast]
    push_cast
    congr 1
    ring
  · rename_i part
    obtain ⟨parts, proper⟩ := natCast_div_eq dividend divisor_pos
    have some_ : (0 : ℚ) < (dividend % divisor : ℕ) / divisor :=
      div_pos (by exact_mod_cast Nat.pos_of_ne_zero part) (by exact_mod_cast divisor_pos)
    refine ⟨rfl, rounded_digits precise enough ?_ ?_⟩
    · gcongr
      linarith
    · gcongr
      linarith

end Context

/-! ## Operators -/

/-- What an arithmetic operator stands for. -/
def BinaryOp.calculation? : BinaryOp → Option (ℚ → ℚ → ℚ)
  | .add => some (· + ·)
  | .subtract => some (· - ·)
  | .multiply => some (· * ·)
  | .divide => some (· / ·)
  | _ => none

/-- What an operator ends in when its result is rounded. -/
def BinaryOp.ending (op : BinaryOp) : Except Signal Decimal → Except Error Value
  | .ok d => .ok (.number (.finite d))
  | .error signal => .error (op.arithmeticError signal)

variable {op : BinaryOp} {calculate : ℚ → ℚ → ℚ} {host : Host} {a b : Decimal}

theorem apply_divide_zero (h : b.value = 0) :
    BinaryOp.divide.apply ctx host (.number (.finite a)) (.number (.finite b)) =
      .error .divisionByZero := by
  have : (Number.finite b).isZero = true := beq_iff_eq.mpr (Decimal.value_eq_zero_iff.mp h)
  simp [BinaryOp.apply, BinaryOp.arithmetic, Number.isSignaling, this]

theorem BinaryOp.ending_round (ctx : Context) (op : BinaryOp) (d : Decimal) :
    op.ending (ctx.round d) =
      match ctx.roundNumber d with
      | .ok n => .ok (.number n)
      | .error signal => .error (op.arithmeticError signal) := by
  unfold Context.roundNumber
  cases ctx.round d <;> rfl

/-- What an arithmetic operator forms of two decimals, before rounding. -/
def BinaryOp.formed (ctx : Context) : BinaryOp → Decimal → Decimal → Decimal
  | .add, a, b => ctx.sum a b
  | .subtract, a, b => ctx.sum a b.flip
  | .multiply, a, b => Context.product a b
  | _, a, b => ctx.quotient a b

/-- Unless it divides by a zero, an operator rounds what it forms. -/
theorem apply_eq_ending (h : op.calculation? = some calculate)
    (divisor : op = .divide → b.value ≠ 0) :
    op.apply ctx host (.number (.finite a)) (.number (.finite b)) =
      op.ending (ctx.round (op.formed ctx a b)) := by
  cases op with
  | add => exact (BinaryOp.ending_round ctx .add _).symm
  | subtract => exact (BinaryOp.ending_round ctx .subtract _).symm
  | multiply => exact (BinaryOp.ending_round ctx .multiply _).symm
  | divide =>
    have nonzero : (Number.finite b).isZero = false :=
      beq_eq_false_iff_ne.mpr (mt Decimal.value_eq_zero_iff.mpr (divisor rfl))
    rw [BinaryOp.ending_round]
    simp only [BinaryOp.apply, BinaryOp.arithmetic, Number.isSignaling, nonzero,
      Bool.false_eq_true, if_false]
    rfl
  | _ => cases h

/-- What is formed rounds like the exact result. -/
theorem rounded_formed (precise : 1 ≤ ctx.precision) (h : op.calculation? = some calculate)
    (divisor : op = .divide → b.value ≠ 0) :
    ctx.rounded (op.formed ctx a b).value = ctx.rounded (calculate a.value b.value) := by
  cases op with
  | add =>
    cases h
    exact Context.rounded_sum a b
  | subtract =>
    cases h
    rw [BinaryOp.formed, Context.rounded_sum, Decimal.value_flip, ← sub_eq_add_neg]
  | multiply =>
    cases h
    rw [BinaryOp.formed, Context.value_product]
  | divide =>
    cases h
    exact Context.rounded_quotient precise a (mt Decimal.value_eq_zero_iff.mpr (divisor rfl))
  | _ => cases h

/-- Every other result is a decimal, rounded once, that rounds like the exact result. -/
theorem apply_eq_round (precise : 1 ≤ ctx.precision) (h : op.calculation? = some calculate)
    (divisor : op = .divide → b.value ≠ 0) :
    ∃ d : Decimal, ctx.rounded d.value = ctx.rounded (calculate a.value b.value) ∧
      op.apply ctx host (.number (.finite a)) (.number (.finite b)) = op.ending (ctx.round d) :=
  ⟨op.formed ctx a b, rounded_formed precise h divisor, apply_eq_ending h divisor⟩

/-- An arithmetic operator fails with a division by zero exactly when it divides by a zero.
Otherwise the exact result is rounded.  If that lies beyond the exponents of the context there is an
overflow, and if not, the result is a number of that value with no more digits than the
precision. -/
theorem arithmetic_is_correctly_rounded {precision : ℕ} (precise : 1 ≤ precision) (op : BinaryOp)
    (calculate : ℚ → ℚ → ℚ) (h : op.calculation? = some calculate) (host : Host) (a b : Decimal) :
    let ctx : Context := { precision := precision }
    let result := op.apply ctx host (.number (.finite a)) (.number (.finite b))
    let r := ctx.rounded (calculate a.value b.value)
    (result = .error .divisionByZero ↔ op = .divide ∧ b.value = 0) ∧
    (¬(op = .divide ∧ b.value = 0) →
      (result = .error (.overflow op.spelling) ↔ 10 ^ 1000000 ≤ |r|) ∧
      (|r| < 10 ^ 1000000 → ∃ d : Decimal, result = .ok (.number (.finite d)) ∧ d.value = r ∧
        digitCount d.coefficient ≤ precision)) := by
  intro ctx result r
  have reach : (10 : ℚ) ^ (ctx.greatestExponent + 1) = 10 ^ 1000000 := by
    have : ctx.greatestExponent + 1 = ((1000000 : ℕ) : ℤ) := rfl
    rw [this, zpow_natCast]
  by_cases zero : op = .divide ∧ b.value = 0
  · refine ⟨iff_of_true ?_ zero, absurd zero⟩
    obtain ⟨rfl, hb⟩ := zero
    exact apply_divide_zero hb
  · obtain ⟨d, same, hresult⟩ : ∃ d : Decimal, ctx.rounded d.value = r ∧
        result = op.ending (ctx.round d) :=
      apply_eq_round precise h fun division nonzero => zero ⟨division, nonzero⟩
    have range : (-999999 : ℤ) ≤ 999999 := by decide
    have outcome : ctx.Rounds (ctx.rounded d.value) (ctx.round d) :=
      Context.rounds_round precise range d
    rw [same] at outcome
    generalize ctx.round d = rounded at outcome hresult
    rw [hresult, ← reach]
    cases outcome with
    | overflow beyond =>
      have other : op.ending (.error .overflow) ≠ .error .divisionByZero := by
        simp [BinaryOp.ending, BinaryOp.arithmeticError]
      refine ⟨iff_of_false other zero, fun _ => ⟨?_, ?_⟩⟩
      · exact iff_of_true rfl beyond
      · exact fun within => absurd beyond (not_le.mpr within)
    | number within value short =>
      refine ⟨iff_of_false (by simp [BinaryOp.ending]) zero, fun _ => ⟨?_, ?_⟩⟩
      · exact iff_of_false (by simp [BinaryOp.ending]) (not_le.mpr within)
      · exact fun _ => ⟨_, rfl, value, short⟩

/-- Two thirds have three digits. -/
theorem arithmetic_is_correctly_rounded_two_thirds :
    ∃ d : Decimal, BinaryOp.divide.apply { precision := 3 } default
      (.number (.finite ⟨false, 2, 0⟩)) (.number (.finite ⟨false, 3, 0⟩)) =
        .ok (.number (.finite d)) ∧ d.value = 667 / 1000 := by
  have value : ∀ n : ℕ, Decimal.value ⟨false, n, 0⟩ = n := by
    intro n
    simp [Decimal.value_eq, Decimal.magnitude]
  have place : Context.place { precision := 3 } (2 / 3) = -3 := by
    have : Int.log 10 |(2 / 3 : ℚ)| = -1 := by
      rw [abs_of_pos (by norm_num)]
      exact log_eq (by norm_num) (by norm_num)
    rw [Context.place, this]
    decide
  have rounded : Context.rounded { precision := 3 } (2 / 3) = 667 / 1000 := by
    have units : halfEven (2 / 3 / 10 ^ (-3 : ℤ)) = 667 :=
      halfEven_eq_iff.mpr (.inl (by rw [abs_lt]; norm_num))
    rw [Context.rounded, place, units]
    norm_num
  have small : |(667 / 1000 : ℚ)| < 10 ^ 1000000 := by
    refine lt_of_lt_of_le ?_ (one_le_pow₀ (by norm_num))
    rw [abs_lt]
    norm_num
  have general := arithmetic_is_correctly_rounded (by decide : 1 ≤ 3) .divide (· / ·) rfl default
    ⟨false, 2, 0⟩ ⟨false, 3, 0⟩
  simp only [value, Nat.cast_ofNat, rounded] at general
  obtain ⟨d, result, hd, -⟩ := (general.2 (by norm_num)).2 small
  exact ⟨d, result, hd⟩

end ScopeScript
