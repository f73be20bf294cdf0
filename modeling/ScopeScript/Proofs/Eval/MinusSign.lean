import ScopeScript.CommandLine.Command
import ScopeScript.Proofs.Eval.Arithmetic
import ScopeScript.Proofs.Number.Representable
set_option autoImplicit false

/-!
# Eval: numbers behind a minus sign

The text of a number starts with a minus sign if the number is negative.  That of zero does not, and
`0` stands for a negative zero too; but a negative zero with decimals is shown with its sign.

Such zeros are computed.  A result has the sign of the exact one.  If that is negative, its sign is
left to a zero that it is rounded to, and if it is zero, the signs of the operands decide: a product
and a quotient have a sign if one operand has, a sum if both have.
-/

namespace ScopeScript

variable {d : Decimal}

/-- Whether a text starts with a minus sign. -/
def StartsWithMinus (text : String) : Prop := text.toList.head? = some '-'

instance (text : String) : Decidable (StartsWithMinus text) :=
  inferInstanceAs (Decidable (text.toList.head? = some '-'))

namespace Decimal

/-- A negative zero with decimals. -/
structure IsSignedZero (d : Decimal) : Prop where
  negative : d.negative = true
  zero : d.coefficient = 0
  decimals : d.exponent < 0

/-- Where the text of a number leaves a run: it is printed, logged or stored. -/
inductive ShownAs (d : Decimal) : String → Prop
  | printed {verbosity : Nat} {tree : Node} {m : Machine} {text : String}
      (returns : EStateM.run (Eval.run { logLevel := verbosity } globalScope tree) {} =
        .ok (some (.number (.finite d))) m)
      (prints : (Command.runTree verbosity tree).stdout = text ++ "\n") : ShownAs d text
  | logged (host : Host) : ShownAs d (host.render (.number (.finite d)))
  | stored {text : String} (stores : (Node.literal (.number (.finite d))).store =
      .ok (Datum.literalObject "Number" (.string text))) : ShownAs d text

/-- It is the same text everywhere. -/
theorem ShownAs.eq_fixed {text : String} (h : d.ShownAs text) : text = d.fixed := by
  cases h with
  | printed returns prints =>
    have shows : d.fixed ++ "\n" = text ++ "\n" := by
      rw [← prints, Command.runTree, returns]
      rfl
    exact (String.append_left_inj "\n").mp shows.symm
  | logged host => rfl
  | stored stores =>
    cases stores
    rfl

/-! ## Signs -/

theorem value_neg_iff : d.value < 0 ↔ d.negative = true ∧ d.coefficient ≠ 0 := by
  by_cases zero : d.coefficient = 0
  · simp [value_of_coefficient_eq_zero zero, zero]
  · have positive := magnitude_pos zero
    rw [value_eq]
    split
    · rename_i sign
      exact iff_of_true (neg_neg_of_pos positive) ⟨sign, zero⟩
    · rename_i sign
      exact iff_of_false (not_lt.mpr positive.le) fun h => sign h.1

theorem IsSignedZero.not_neg (h : d.IsSignedZero) : ¬d.value < 0 :=
  fun negative => (value_neg_iff.mp negative).2 h.zero

theorem isSignedZero_iff :
    d.IsSignedZero ↔ d.value = 0 ∧ d.exponent < 0 ∧ d.negative = true := by
  rw [value_eq_zero_iff]
  exact ⟨fun h => ⟨h.zero, h.decimals, h.negative⟩, fun ⟨zero, decimals, negative⟩ =>
    ⟨negative, zero, decimals⟩⟩

theorem showsSign_iff : d.showsSign = true ↔ d.value < 0 ∨ d.IsSignedZero := by
  rw [value_neg_iff]
  constructor
  · intro shows
    obtain ⟨sign, other⟩ : d.negative = true ∧ (d.coefficient = 0 → d.exponent < 0) := by
      simpa only [showsSign, Bool.and_eq_true, Bool.not_eq_true', Bool.and_eq_false_imp,
        beq_iff_eq, decide_eq_false_iff_not, not_le] using shows
    by_cases zero : d.coefficient = 0
    · exact .inr ⟨sign, zero, other zero⟩
    · exact .inl ⟨sign, zero⟩
  · rintro (⟨sign, some_⟩ | ⟨sign, -, decimals⟩)
    · simp [showsSign, sign, some_]
    · simp [showsSign, sign, not_le.mpr decimals]

/-- The digits of a magnitude do not start with a minus sign. -/
theorem head?_fixedDigits_ne (d : Decimal) : d.fixedDigits.head? ≠ some '-' := fun minus =>
  (Number.plain_facts (isPlain_of_mem_fixedDigits (List.mem_of_head? minus))).2.2.2.1 rfl

theorem startsWithMinus_fixed_iff : StartsWithMinus d.fixed ↔ d.value < 0 ∨ d.IsSignedZero := by
  rw [← showsSign_iff, StartsWithMinus, fixed, String.toList_ofList]
  split
  · rename_i shows
    exact iff_of_true rfl shows
  · rename_i hides
    exact iff_of_false d.head?_fixedDigits_ne hides

end Decimal

/-! ## The sign of what is formed -/

namespace Context

variable {ctx : Context}

/-- The sign in front of a magnitude is that of the value, or that of a zero. -/
theorem sign_iff {negative : Bool} {size : ℚ} (h : 0 ≤ size) :
    negative = true ↔ (if negative then -size else size) < 0 ∨
      (if negative then -size else size) = 0 ∧ negative = true := by
  cases negative with
  | false => simp [h]
  | true => exact iff_of_true rfl (by simpa using (neg_nonpos.mpr h).lt_or_eq)

theorem negative_product_iff (x y : Decimal) :
    (product x y).negative = true ↔
      x.value * y.value < 0 ∨ x.value * y.value = 0 ∧ (x.negative != y.negative) = true := by
  rw [← value_product, Decimal.value_eq]
  exact sign_iff (product x y).magnitude_nonneg

theorem negative_quotient (ctx : Context) (x y : Decimal) :
    (ctx.quotient x y).negative = (x.negative != y.negative) := by
  unfold quotient
  dsimp only
  split_ifs
  all_goals rfl

theorem negative_quotient_iff (ctx : Context) (x y : Decimal) :
    (ctx.quotient x y).negative = true ↔
      x.value / y.value < 0 ∨ x.value / y.value = 0 ∧ (x.negative != y.negative) = true := by
  rw [negative_quotient, value_div]
  exact sign_iff (div_nonneg x.magnitude_nonneg y.magnitude_nonneg)

theorem negative_addAligned {a b : Decimal} (same : a.exponent = b.exponent)
    (some_ : a.coefficient ≠ 0) :
    (addAligned a b).negative = true ↔ a.value + b.value < 0 := by
  have units : (addAligned a b).negative = true ↔ a.units + b.units < 0 := by
    obtain ⟨signA, coefficientA, exponentA⟩ := a
    obtain ⟨signB, coefficientB, exponentB⟩ := b
    unfold addAligned Decimal.units
    cases signA <;> cases signB
    all_goals
      simp only [reduceCtorEq, if_true, if_false] at some_ ⊢
      grind
  have scale := ten_zpow_pos a.exponent
  have scaled : a.value + b.value = (a.units + b.units : ℤ) * 10 ^ a.exponent := by
    rw [a.value_eq_units, b.value_eq_units, ← same]
    push_cast
    ring
  rw [units, scaled, ← Int.cast_lt_zero (R := ℚ)]
  exact ⟨fun h => mul_neg_of_neg_of_pos h scale, fun h => neg_of_mul_neg_left h scale.le⟩

/-- A smaller summand does not change the sign. -/
theorem add_neg_iff {s t : ℚ} (small : |t| < |s|) : s + t < 0 ↔ s < 0 := by
  obtain ⟨low, high⟩ := abs_lt.mp small
  rcases le_or_gt 0 s with positive | negative
  · rw [abs_of_nonneg positive] at low
    constructor <;> intro <;> linarith
  · rw [abs_of_neg negative] at high
    constructor <;> intro <;> linarith

/-- Two decimals brought to one exponent have a sum of the same sign. -/
theorem negative_align {high low : Decimal} (hh : high.coefficient ≠ 0)
    (order : low.exponent ≤ high.exponent) :
    (addAligned (ctx.align high low).1 (ctx.align high low).2).negative = true ↔
      high.value + low.value < 0 := by
  have digits := digitCount_pos high.coefficient
  have scaled : ∀ count, high.coefficient * Nat.pow 10 count ≠ 0 := fun count =>
    Nat.mul_ne_zero hh (Nat.pow_pos (by decide)).ne'
  rw [align, raiseTo]
  generalize hplace :
    high.exponent + min (-1) ((digitCount high.coefficient : ℤ) - ctx.precision - 2) = place
  dsimp only
  split
  · rename_i below
    -- neither the summand nor what stands in for it reaches the digits of the other one
    have smaller : ∀ {d : Decimal}, d.magnitude ≤ 10 ^ place → |d.value| < |high.value| := by
      intro d small
      have leading : (10 : ℚ) ^ place < 10 ^ high.adjusted :=
        zpow_lt_zpow_right₀ (by norm_num) (by simp only [Decimal.adjusted]; omega)
      rw [d.abs_value, high.abs_value]
      exact small.trans_lt (leading.trans_le (Decimal.pow_adjusted_le hh))
    rw [negative_addAligned (by rfl) (scaled _), value_lower high (by dsimp only; omega),
      add_neg_iff (smaller (by simp [Decimal.magnitude])), add_neg_iff (smaller ?_)]
    exact low.magnitude_lt.le.trans (zpow_le_zpow_right₀ (by norm_num) (by omega))
  · rw [negative_addAligned (by rfl) (scaled _), value_lower high order]

theorem negative_sum_iff (ctx : Context) (x y : Decimal) :
    (ctx.sum x y).negative = true ↔
      x.value + y.value < 0 ∨ x.value + y.value = 0 ∧ (x.negative && y.negative) = true := by
  have zero : ∀ {d : Decimal}, d.isZero = true → d.value = 0 := fun h =>
    Decimal.value_of_coefficient_eq_zero (beq_iff_eq.mp h)
  have some_ : ∀ {d : Decimal}, d.isZero = false → d.coefficient ≠ 0 := beq_eq_false_iff_ne.mp
  have sign : ∀ {d : Decimal}, d.isZero = false → (d.negative = true ↔ d.value < 0) := by
    intro d h
    rw [Decimal.value_neg_iff, and_iff_left (some_ h)]
  unfold sum
  dsimp only
  split
  · rename_i hx hy
    simp [zero hx, zero hy]
  · rename_i hx hy
    have nonzero := mt Decimal.value_eq_zero_iff.mp (some_ hy)
    simp [addZero, zero hx, nonzero, sign hy]
  · rename_i hx hy
    have nonzero := mt Decimal.value_eq_zero_iff.mp (some_ hx)
    simp [addZero, zero hy, nonzero, sign hx]
  · rename_i hx hy
    -- two negative numbers have no sum of zero
    have apart : ¬(x.value + y.value = 0 ∧ (x.negative && y.negative) = true) := by
      rintro ⟨none, both⟩
      obtain ⟨negative, negative'⟩ := Bool.and_eq_true_iff.mp both
      exact (add_neg ((sign hx).mp negative) ((sign hy).mp negative')).ne none
    have cleared : ∀ {total : Decimal} {exponent : ℤ},
        (if total.isZero then { total with exponent := exponent } else total).negative =
          total.negative := by
      intro total exponent
      split <;> rfl
    rw [cleared, or_iff_left apart]
    split
    · rename_i order
      rw [negative_align (some_ hy) order.le, add_comm]
    · rename_i order
      exact negative_align (some_ hx) (not_lt.mp order)

end Context

/-! ## The sign of a result -/

variable {ctx : Context} {host : Host} {op : BinaryOp} {calculate : ℚ → ℚ → ℚ} {x y : Decimal}

/-- Whether an exact result of zero has a sign, by the signs of the operands. -/
def BinaryOp.signsZero : BinaryOp → Bool → Bool → Bool
  | .add, negative, negative' => negative && negative'
  | .subtract, negative, negative' => negative && !negative'
  | _, negative, negative' => negative != negative'

theorem BinaryOp.negative_formed_iff (h : op.calculation? = some calculate) :
    (op.formed ctx x y).negative = true ↔ calculate x.value y.value < 0 ∨
      calculate x.value y.value = 0 ∧ op.signsZero x.negative y.negative = true := by
  cases op with
  | add =>
    cases h
    exact ctx.negative_sum_iff x y
  | subtract =>
    cases h
    have flipped := ctx.negative_sum_iff x y.flip
    rwa [Decimal.value_flip, ← sub_eq_add_neg] at flipped
  | multiply =>
    cases h
    exact Context.negative_product_iff x y
  | divide =>
    cases h
    exact ctx.negative_quotient_iff x y
  | _ => cases h

/-- A result has the sign of what was formed. -/
theorem BinaryOp.negative_apply_iff (h : op.calculation? = some calculate)
    (computes : op.apply ctx host (.number (.finite x)) (.number (.finite y)) =
      .ok (.number (.finite d))) :
    d.negative = true ↔ calculate x.value y.value < 0 ∨
      calculate x.value y.value = 0 ∧ op.signsZero x.negative y.negative = true := by
  have divisor : op = .divide → y.value ≠ 0 := by
    rintro rfl zero
    rw [apply_divide_zero zero] at computes
    cases computes
  rw [apply_eq_ending h divisor] at computes
  cases rounds : ctx.round (op.formed ctx x y) with
  | error signal =>
    rw [rounds] at computes
    cases computes
  | ok result =>
    rw [rounds] at computes
    cases computes
    rw [(Context.round_eq_ok rounds).1]
    exact negative_formed_iff h

theorem UnaryOp.negative_minus_iff
    (computes : UnaryOp.minus.apply ctx (.number (.finite x)) = .ok (.number (.finite d))) :
    d.negative = true ↔ 0 < x.value := by
  have formed : ctx.negate (.finite x) =
      ctx.roundNumber (if x.isZero then x.abs else x.flip) := rfl
  cases rounds : ctx.round (if x.isZero then x.abs else x.flip) with
  | error signal =>
    simp [UnaryOp.apply, formed, Context.roundNumber, rounds] at computes
  | ok result =>
    obtain rfl : result = d := by
      simpa [UnaryOp.apply, formed, Context.roundNumber, rounds] using computes
    rw [(Context.round_eq_ok rounds).1]
    split
    · rename_i zero
      have none := Decimal.value_of_coefficient_eq_zero (beq_iff_eq.mp zero)
      simp [Decimal.abs, none]
    · rename_i some_
      have nonzero : x.flip.coefficient ≠ 0 := fun zero => some_ (beq_iff_eq.mpr zero)
      rw [← neg_lt_zero, ← Decimal.value_flip, Decimal.value_neg_iff, and_iff_left nonzero]

/-- The text of a number starts with a minus sign if the number is negative, or a negative zero with
decimals.  So wherever the number is shown, a minus sign tells that it is negative unless it is such
a zero.  A result of an operator is one if it is zero and has decimals, and if the exact result was
negative, or was zero and got a sign from the operands. -/
theorem minus_signs_are_shown (d : Decimal) :
    (StartsWithMinus d.fixed ↔ d.value < 0 ∨ d.IsSignedZero) ∧
    (∀ text, d.ShownAs text → ((StartsWithMinus text ↔ d.value < 0) ↔ ¬d.IsSignedZero)) ∧
    (∀ ctx host op calculate x y, BinaryOp.calculation? op = some calculate →
      op.apply ctx host (.number (.finite x)) (.number (.finite y)) = .ok (.number (.finite d)) →
      (d.IsSignedZero ↔ d.value = 0 ∧ d.exponent < 0 ∧ (calculate x.value y.value < 0 ∨
        calculate x.value y.value = 0 ∧ op.signsZero x.negative y.negative = true))) ∧
    ∀ ctx x, UnaryOp.minus.apply ctx (.number (.finite x)) = .ok (.number (.finite d)) →
      (d.IsSignedZero ↔ d.value = 0 ∧ d.exponent < 0 ∧ 0 < x.value) := by
  refine ⟨Decimal.startsWithMinus_fixed_iff, fun text shown => ?_, ?_, ?_⟩
  · rw [shown.eq_fixed, Decimal.startsWithMinus_fixed_iff]
    constructor
    · intro only signed
      exact signed.not_neg (only.mp (.inr signed))
    · intro other
      exact or_iff_left other
  · intro ctx host op calculate x y h computes
    rw [Decimal.isSignedZero_iff, BinaryOp.negative_apply_iff h computes]
  · intro ctx x computes
    rw [Decimal.isSignedZero_iff, UnaryOp.negative_minus_iff computes]

/-- Minus one half in a log, and its product with zero. -/
theorem minus_signs_are_shown_minusHalf :
    Decimal.ShownAs ⟨true, 5, -1⟩ (Host.render {} (.number (.finite ⟨true, 5, -1⟩))) ∧
    StartsWithMinus (Host.render {} (.number (.finite ⟨true, 5, -1⟩))) ∧
    BinaryOp.multiply.apply .standard default (.number (.finite ⟨true, 5, -1⟩))
      (.number (.finite ⟨false, 0, 0⟩)) = .ok (.number (.finite ⟨true, 0, -1⟩)) ∧
    Decimal.IsSignedZero ⟨true, 0, -1⟩ := by
  have negative : Decimal.value ⟨true, 5, -1⟩ < 0 := Decimal.value_neg_iff.mpr ⟨rfl, by decide⟩
  have zero : ∀ sign exponent, Decimal.value ⟨sign, 0, exponent⟩ = 0 := fun sign exponent =>
    Decimal.value_eq_zero_iff.mpr rfl
  have logged : Decimal.ShownAs ⟨true, 5, -1⟩ _ := .logged {}
  have product : BinaryOp.multiply.apply .standard default (.number (.finite ⟨true, 5, -1⟩))
      (.number (.finite ⟨false, 0, 0⟩)) = .ok (.number (.finite ⟨true, 0, -1⟩)) := rfl
  refine ⟨logged, ?_, product, ?_⟩
  · have only := (minus_signs_are_shown ⟨true, 5, -1⟩).2.1 _ logged
    exact (only.mpr fun signed => signed.not_neg negative).mpr negative
  · refine ((minus_signs_are_shown ⟨true, 0, -1⟩).2.2.1 _ _ _ _ _ _ rfl product).mpr ?_
    exact ⟨zero _ _, by decide, .inr ⟨by rw [zero, mul_zero], rfl⟩⟩

/-- A script computes a zero that is shown like a negative number. -/
theorem zeroProduct_shows_minus :
    EStateM.run (Eval.evaluateSource {} globalScope "0.0 * -1") {} =
      .ok (.number (.finite ⟨true, 0, -1⟩)) {} ∧
    ¬(StartsWithMinus (Decimal.fixed ⟨true, 0, -1⟩) ↔ Decimal.value ⟨true, 0, -1⟩ < 0) := by
  refine ⟨rfl, fun only => ?_⟩
  have negative := only.mp (by decide)
  exact absurd rfl (Decimal.value_neg_iff.mp negative).2

end ScopeScript
