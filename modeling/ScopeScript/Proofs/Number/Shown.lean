import Mathlib.Algebra.Group.Nat.Defs
import ScopeScript.Proofs.Source.Numeral
set_option autoImplicit false

/-!
# Number: what is read from a number text

Fixed-point notation shows decimals as digits behind the point, but it has no way to show a
positive exponent: there are zeros in its place.  And it drops the sign of a zero without decimals.
So what is read from the fixed-point text of a number is not always the same triple, but it has the
same value and the same text, and it is the same triple if there is no sign and the exponent is not
positive.

With an exponent behind its digits, a number is written as the triple that it is.
-/

namespace ScopeScript

namespace Number

/-- The characters that numbers are written with. -/
def IsWritten (c : Char) : Prop := c.isDigit = true ∨ c ∈ ['.', '-', '+', 'E']

/-- A character that numbers are written with is no blank and no separator, and a digit only of
ASCII. -/
theorem written_facts {c : Char} (h : IsWritten c) :
    Text.isBlank c = false ∧ c ≠ '_' ∧ asciiDigit c = c := by
  rcases h with digit | mark
  · obtain ⟨notBlank, noSeparator, ascii, -, -⟩ := plain_facts (.inl digit)
    exact ⟨notBlank, noSeparator, ascii⟩
  · simp only [List.mem_cons, List.not_mem_nil, or_false] at mark
    rcases mark with rfl | rfl | rfl | rfl
    all_goals decide +kernel

/-- A numeral may stand behind a minus sign. -/
theorem read?_signed {body : List Char} {numeral : Numeral} (negative : Bool)
    (written : ∀ c ∈ body, IsWritten c) (signless : ∀ c ∈ body.head?, c ≠ '-' ∧ c ≠ '+')
    (read : readNumeral? body = some numeral)
    (reach : numeral.power = none ∨ inReach (numeral.toDecimal negative) = true) :
    read? (String.ofList (if negative then '-' :: body else body)) =
      some (.finite (numeral.toDecimal negative)) := by
  have sign : readSign (plainText (if negative then '-' :: body else body)) = (negative, body) := by
    cases negative with
    | true =>
      have plain : plainText ('-' :: body) = '-' :: body := by
        refine plainText_of_forall fun c hc => written_facts ?_
        rcases List.mem_cons.mp hc with rfl | hc
        · exact .inr (by decide)
        · exact written c hc
      rw [if_pos rfl, plain]
      rfl
    | false =>
      have plain : plainText body = body :=
        plainText_of_forall fun c hc => written_facts (written c hc)
      rw [if_neg Bool.false_ne_true, plain]
      unfold readSign
      split
      · exact absurd rfl (signless '-' rfl).1
      · exact absurd rfl (signless '+' rfl).2
      · rfl
  have accepted : (numeral.power.isNone || inReach (numeral.toDecimal negative)) = true := by
    rcases reach with none | reach
    · simp [none]
    · simp [reach]
  simp only [read?, String.toList_ofList, sign, read, accepted, if_true]

end Number

namespace Decimal

/-- The value of a decimal. -/
def value (d : Decimal) : Rat :=
  (if d.negative then -1 else 1) * d.coefficient * 10 ^ d.exponent

/-- The decimal that the fixed-point text of a decimal shows. -/
def shown (d : Decimal) : Decimal :=
  if 0 ≤ d.exponent then ⟨d.showsSign, d.coefficient * 10 ^ d.exponent.toNat, 0⟩ else d

theorem shown_of_nonneg {d : Decimal} (h : 0 ≤ d.exponent) :
    d.shown = ⟨d.showsSign, d.coefficient * 10 ^ d.exponent.toNat, 0⟩ := if_pos h

theorem shown_of_neg {d : Decimal} (h : d.exponent < 0) : d.shown = d :=
  if_neg (Int.not_le.mpr h)

/-- Without a positive exponent, nothing is lost but the sign of a zero without decimals. -/
theorem shown_eq_self_of_ne {d : Decimal} (small : d.exponent ≤ 0) (other : d ≠ ⟨true, 0, 0⟩) :
    d.shown = d := by
  rcases Int.lt_or_eq_of_le small with point | whole
  · exact shown_of_neg point
  · rw [shown_of_nonneg (Int.le_of_eq whole.symm)]
    obtain ⟨negative, coefficient, exponent⟩ := d
    obtain rfl : exponent = 0 := whole
    have sign : showsSign ⟨negative, coefficient, 0⟩ = negative := by
      cases negative with
      | false => rfl
      | true =>
        have some_ : coefficient ≠ 0 := by
          rintro rfl
          exact other rfl
        simp [showsSign, some_]
    simp [sign]

/-- Without a sign and without a positive exponent, nothing is lost. -/
theorem shown_eq_self {d : Decimal} (sign : d.negative = false) (small : d.exponent ≤ 0) :
    d.shown = d := by
  refine shown_eq_self_of_ne small ?_
  rintro rfl
  exact Bool.noConfusion sign

/-- The sign that is read is the one that is shown. -/
theorem negative_shown (d : Decimal) : d.shown.negative = d.showsSign := by
  rcases Int.lt_or_le d.exponent 0 with point | whole
  · rw [shown_of_neg point]
    simp [showsSign, Int.not_le.mpr point]
  · rw [shown_of_nonneg whole]

theorem exponent_shown_nonpos (d : Decimal) : d.shown.exponent ≤ 0 := by
  rcases Int.lt_or_le d.exponent 0 with point | whole
  · rw [shown_of_neg point]
    exact Int.le_of_lt point
  · simp [shown_of_nonneg whole]

/-! ## Value -/

/-- The value is the same. -/
theorem value_shown (d : Decimal) : d.shown.value = d.value := by
  rcases Int.lt_or_le d.exponent 0 with point | whole
  · rw [shown_of_neg point]
  · rw [shown_of_nonneg whole]
    have power : (10 : Rat) ^ d.exponent = 10 ^ d.exponent.toNat := by
      conv => lhs; rw [← Int.toNat_of_nonneg whole]
      exact Rat.zpow_natCast 10 _
    by_cases zero : d.coefficient = 0
    · simp [value, zero]
    · have sign : d.showsSign = d.negative := by simp [showsSign, zero]
      simp only [value, sign, power, Rat.natCast_mul, Rat.natCast_pow, Rat.zpow_zero, Rat.mul_one,
        Rat.mul_assoc]
      rfl

/-! ## Digits -/

theorem scaled_ne_zero {n count : Nat} (h : n ≠ 0) : n * 10 ^ count ≠ 0 :=
  Nat.mul_ne_zero h (Nat.ne_of_gt (Nat.pow_pos (by decide)))

/-- A power of ten puts zeros behind the digits. -/
theorem toDigits_mul_pow {n : Nat} (h : 0 < n) (count : Nat) :
    Nat.toDigits 10 (n * 10 ^ count) = Nat.toDigits 10 n ++ List.replicate count '0' := by
  induction count with
  | zero => simp
  | succ count ih =>
    have step := Nat.toDigits_append_toDigits (by decide : 1 < 10)
      (Nat.mul_pos h (Nat.pow_pos (by decide : 0 < 10)) : 0 < n * 10 ^ count) (by decide : 0 < 10)
    have shifted : n * 10 ^ (count + 1) = 10 * (n * 10 ^ count) + 0 := by
      rw [Nat.pow_succ, Nat.add_zero, ← Nat.mul_assoc, Nat.mul_comm]
    rw [shifted, ← step, ih, List.append_assoc, List.replicate_succ']
    rfl

theorem digitCount_mul_pow {n : Nat} (h : 0 < n) (count : Nat) :
    digitCount (n * 10 ^ count) = digitCount n + count := by
  simp [digitCount, toDigits_mul_pow h]

/-- Without decimals, the digits are those of the integer. -/
theorem fixedDigits_of_nonneg {d : Decimal} (h : 0 ≤ d.exponent) :
    d.fixedDigits = Nat.toDigits 10 (d.coefficient * 10 ^ d.exponent.toNat) := by
  by_cases zero : d.coefficient = 0
  · simp [fixedDigits, h, zero]
  · rw [toDigits_mul_pow (Nat.pos_of_ne_zero zero)]
    simp [fixedDigits, h, zero]

theorem fixedDigits_shown (d : Decimal) : d.shown.fixedDigits = d.fixedDigits := by
  rcases Int.lt_or_le d.exponent 0 with point | whole
  · rw [shown_of_neg point]
  · rw [fixedDigits_of_nonneg whole, shown_of_nonneg whole, fixedDigits_of_nonneg (Int.le_refl 0)]
    simp

theorem showsSign_shown (d : Decimal) : d.shown.showsSign = d.showsSign := by
  rcases Int.lt_or_le d.exponent 0 with point | whole
  · rw [shown_of_neg point]
  · rw [shown_of_nonneg whole]
    by_cases zero : d.coefficient = 0
    · simp [showsSign, zero, whole]
    · simp [showsSign, zero, scaled_ne_zero zero]

/-- The text is the same. -/
theorem fixed_shown (d : Decimal) : d.shown.fixed = d.fixed := by
  rw [fixed, fixed, fixedDigits_shown, showsSign_shown]

/-! ## Reduction -/

theorem dropZeros_mul_pow (most n count : Nat) :
    dropZeros (most + count) (n * 10 ^ count) =
      ((dropZeros most n).1, (dropZeros most n).2 + count) := by
  induction count with
  | zero => simp
  | succ count ih =>
    have shifted : n * 10 ^ (count + 1) = n * 10 ^ count * 10 := by
      rw [Nat.pow_succ, Nat.mul_assoc]
    rw [← Nat.add_assoc, dropZeros, shifted, if_pos (Nat.mul_mod_left _ _),
      Nat.mul_div_cancel _ (by decide), ih]
    rfl

/-- The shortest coefficient is the same. -/
theorem reduced_shown (d : Decimal) : d.shown.reduced = d.reduced := by
  rcases Int.lt_or_le d.exponent 0 with point | whole
  · rw [shown_of_neg point]
  · rw [shown_of_nonneg whole]
    by_cases zero : d.coefficient = 0
    · simp [reduced, zero]
    · have positive := Nat.pos_of_ne_zero zero
      have sign : d.showsSign = d.negative := by simp [showsSign, zero]
      simp only [reduced, if_neg zero, if_neg (scaled_ne_zero zero), digitCount_mul_pow positive,
        dropZeros_mul_pow, sign]
      congr 1
      omega

/-! ## Reading -/

theorem isPlain_of_mem_fixedDigits {d : Decimal} {c : Char} (h : c ∈ d.fixedDigits) :
    Number.IsPlain c := by
  rcases Int.lt_or_le d.exponent 0 with point | whole
  · obtain ⟨whole, places, zeros, hdigits, -, hpadded, -⟩ := fixedDigits_point point
    rw [hdigits, List.mem_append, List.mem_cons] at h
    have digits : ∀ c ∈ whole ++ places, c.isDigit = true := by
      rw [hpadded]
      exact fun c => isDigit_of_mem_padded
    rcases h with h | rfl | h
    · exact .inl (digits c (List.mem_append_left _ h))
    · exact .inr rfl
    · exact .inl (digits c (List.mem_append_right _ h))
  · rw [fixedDigits_of_nonneg whole] at h
    exact .inl (Nat.isDigit_of_mem_toDigits (by decide) (by decide) h)

/-- The digits of a magnitude are read as the decimal that they show, whatever the sign. -/
theorem readNumeral?_fixedDigits (d : Decimal) :
    ∃ numeral, Number.readNumeral? d.fixedDigits = some numeral ∧ numeral.power = none ∧
      ∀ negative, numeral.toDecimal negative = { d.shown with negative := negative } := by
  rcases Int.lt_or_le d.exponent 0 with point | whole
  · obtain ⟨whole, places, zeros, hdigits, some_, hpadded, hlength⟩ := fixedDigits_point point
    have digits : ∀ c ∈ whole ++ places, c.isDigit = true := by
      rw [hpadded]
      exact fun c => isDigit_of_mem_padded
    have value : Nat.ofDigitChars 10 (whole ++ places) 0 = d.coefficient := by
      rw [hpadded, Nat.ofDigitChars_append, Nat.ofDigitChars_replicate_zero, Nat.mul_zero,
        Nat.ofDigitChars_ten_toDigits]
    rw [hdigits, Number.readNumeral?_point (fun c hc => digits c (List.mem_append_left _ hc))
      (fun c hc => digits c (List.mem_append_right _ hc)) (.inl some_), shown_of_neg point]
    refine ⟨_, rfl, rfl, fun negative => ?_⟩
    simp [Number.Numeral.toDecimal, value, hlength]
  · have digits : ∀ c ∈ d.fixedDigits, c.isDigit = true := by
      rw [fixedDigits_of_nonneg whole]
      exact fun c => Nat.isDigit_of_mem_toDigits (by decide) (by decide)
    have some_ : d.fixedDigits ≠ [] := by
      rw [fixedDigits_of_nonneg whole]
      exact Nat.toDigits_ne_nil
    rw [Number.readNumeral?_whole digits some_, shown_of_nonneg whole]
    refine ⟨_, rfl, rfl, fun negative => ?_⟩
    simp [Number.Numeral.toDecimal, fixedDigits_of_nonneg whole, Nat.ofDigitChars_ten_toDigits]

/-- The fixed-point text of a decimal is read as the decimal that it shows. -/
theorem read?_fixed_eq_shown (d : Decimal) : Number.read? d.fixed = some (.finite d.shown) := by
  obtain ⟨numeral, hread, hpower, hdecimal⟩ := readNumeral?_fixedDigits d
  have plain : ∀ c ∈ d.fixedDigits, Number.IsPlain c := fun c => isPlain_of_mem_fixedDigits
  have shown : numeral.toDecimal d.showsSign = d.shown := by
    rw [hdecimal, ← negative_shown]
  rw [fixed, Number.read?_signed d.showsSign ?_ ?_ hread (.inl hpower), shown]
  · intro c hc
    exact (plain c hc).imp_right fun point => by simp [point]
  · intro c hc
    exact (Number.plain_facts (plain c (List.mem_of_head? hc))).2.2.2

/-! ## Exponents -/

/-- The text of a decimal as the triple that it is: its digits with the exponent behind them. -/
def triple (d : Decimal) : String :=
  let body := Nat.toDigits 10 d.coefficient ++ 'E' :: signedExponent d.exponent
  String.ofList (if d.negative then '-' :: body else body)

theorem readPower?_digits (negative : Bool) (magnitude : Nat) :
    Number.readPower? ('E' :: (if negative then '-' else '+') :: Nat.toDigits 10 magnitude) =
      some (some (if negative then -(magnitude : Int) else magnitude)) := by
  have digits : (Nat.toDigits 10 magnitude).all Char.isDigit = true :=
    List.all_eq_true.mpr fun c => Nat.isDigit_of_mem_toDigits (by decide) (by decide)
  cases negative <;>
    simp [Number.readPower?, Number.readSign, digits, Nat.ofDigitChars_ten_toDigits]

theorem readPower?_signedExponent (n : Int) :
    Number.readPower? ('E' :: signedExponent n) = some (some n) := by
  by_cases negative : n < 0
  · have magnitude : -(n.natAbs : Int) = n := by omega
    rw [signedExponent, if_pos negative]
    exact (readPower?_digits true n.natAbs).trans (congrArg (some ∘ some) magnitude)
  · have magnitude : (n.natAbs : Int) = n := by omega
    rw [signedExponent, if_neg negative]
    exact (readPower?_digits false n.natAbs).trans (congrArg (some ∘ some) magnitude)

theorem isWritten_of_mem_signedExponent {n : Int} {c : Char} (h : c ∈ signedExponent n) :
    Number.IsWritten c := by
  rcases List.mem_cons.mp h with rfl | h
  · right
    split <;> decide
  · exact .inl (Nat.isDigit_of_mem_toDigits (by decide) (by decide) h)

/-- A decimal that some context has can be read from a text. -/
theorem read?_triple {d : Decimal} (reach : Number.inReach d = true) :
    Number.read? d.triple = some (.finite d) := by
  have digits : ∀ c ∈ Nat.toDigits 10 d.coefficient, c.isDigit = true :=
    fun c => Nat.isDigit_of_mem_toDigits (by decide) (by decide)
  have numeral : Number.readNumeral? (Nat.toDigits 10 d.coefficient ++
      'E' :: signedExponent d.exponent) =
      some ⟨Nat.toDigits 10 d.coefficient, [], some d.exponent⟩ := by
    have span := Number.spanDigits_append digits
      (by simp : ∀ c ∈ ('E' :: signedExponent d.exponent).head?, c.isDigit = false)
    simp [Number.readNumeral?, span, readPower?_signedExponent]
  have decimal : Number.Numeral.toDecimal ⟨Nat.toDigits 10 d.coefficient, [], some d.exponent⟩
      d.negative = d := by
    simp [Number.Numeral.toDecimal, Nat.ofDigitChars_ten_toDigits]
  rw [triple, Number.read?_signed d.negative ?_ ?_ numeral (.inr (by rw [decimal, reach])), decimal]
  · intro c hc
    rcases List.mem_append.mp hc with hc | hc
    · exact .inl (digits c hc)
    · rcases List.mem_cons.mp hc with rfl | hc
      · exact .inr (by decide)
      · exact isWritten_of_mem_signedExponent hc
  · intro c hc
    obtain ⟨first, more, hdigits⟩ := List.exists_cons_of_ne_nil
      (Nat.toDigits_ne_nil : Nat.toDigits 10 d.coefficient ≠ [])
    rw [hdigits] at hc digits
    cases hc
    exact (Number.plain_facts (.inl (digits c (by simp)))).2.2.2

end Decimal

end ScopeScript
