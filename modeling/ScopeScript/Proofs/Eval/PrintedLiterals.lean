import ScopeScript.Proofs.Eval.Rendered
set_option autoImplicit false

/-!
# Eval: printed number literals

A number literal without a sign is printed as a numeral, and so it is read back exactly.  One with a
sign is printed as the negation of its magnitude.  The magnitude is rounded on the way, in the
standard context, whatever the context of the interpreter may be: digits behind the twenty-eighth
one are lost, and what has become too large is not printed at all.
-/

namespace ScopeScript

namespace Context

variable {p q : ℕ} {d : Decimal}

theorem Represents.mono (h : ({ precision := p } : Context).Represents d) (more : p ≤ q) :
    ({ precision := q } : Context).Represents d := by
  obtain ⟨short, fine, reach⟩ := h
  simp only [tiny] at fine
  refine ⟨short.trans more, ?_, reach⟩
  simp only [tiny]
  omega

/-- Above the least exponent of a leading digit, rounding takes away the digits that are too many.
-/
theorem rounded_value_eq_iff_digits (low : -999999 ≤ d.adjusted) :
    ({ precision := p } : Context).rounded d.value = d.value ↔
      10 ^ (digitCount d.coefficient - p) ∣ d.coefficient := by
  have last : (({ precision := p } : Context).lastPlace d - d.exponent).toNat =
      digitCount d.coefficient - p := by
    simp only [Decimal.adjusted] at low
    simp only [lastPlace, tiny]
    omega
  rw [rounded_value_eq_iff, last]

theorem represents_of_adjusted (short : digitCount d.coefficient ≤ p) (low : -999999 ≤ d.adjusted)
    (high : d.adjusted ≤ 999999) : ({ precision := p } : Context).Represents d := by
  refine ⟨short, ?_, high⟩
  simp only [Decimal.adjusted] at low
  simp only [tiny]
  omega

end Context

/-! ## Printing and parsing -/

namespace Node

variable {d r : Decimal}

/-- A literal with a sign is printed as the negation of its rounded magnitude, unless that is too
large. -/
theorem print_negative (sign : d.negative = true) (level : Int) :
    (10 ^ (Context.standard.greatestExponent + 1) ≤ |Context.standard.rounded d.value| ∧
      (literal (.number (.finite d))).print level = .error (.arithmetic .overflow)) ∨
    (|Context.standard.rounded d.value| < 10 ^ (Context.standard.greatestExponent + 1) ∧
      ∃ r : Decimal,
        (literal (.number (.finite d))).print level = .ok ("-(" ++ r.fixed ++ ")") ∧
        r.negative = false ∧ r.value = -Context.standard.rounded d.value ∧
        Context.standard.Represents r) := by
  have precise : 1 ≤ Context.standard.precision := by decide
  have range : Context.standard.leastExponent ≤ Context.standard.greatestExponent := by decide
  simp only [print, printLiteral, Number.isNegative, sign, if_true]
  rcases Context.negate_outcome precise range d with
    ⟨beyond, negated⟩ | ⟨within, r, negated, unsigned, value, represents⟩
  · exact .inl ⟨beyond, by rw [negated]⟩
  · exact .inr ⟨within, r, by rw [negated]; rfl, unsigned sign, value, represents⟩

/-- Without a sign, a literal is printed in fixed-point notation. -/
theorem print_nonnegative (sign : d.negative = false) (level : Int) :
    (literal (.number (.finite d))).print level = .ok d.fixed := by
  simp [print, printLiteral, Number.isNegative, sign, Number.fixed]

/-- What a literal with a sign is printed as is parsed as a negation. -/
theorem parseExpression_negation (sign : r.negative = false) :
    parseExpression ("-(" ++ r.fixed ++ ")") =
      .ok (.unary .minus (.literal (.number (.finite r.shown)))) := by
  have unsigned : r.shown.negative = false := by
    rw [r.negative_shown, Decimal.showsSign, sign, Bool.false_and]
  have plain : literalOk (.number (.finite r.shown)) = true := by
    simp [literalOk, unsigned, r.exponent_shown_nonpos]
  have known : UnaryOp.minus ∈ UnaryOp.all := by decide
  obtain ⟨e, tree, prints⟩ := prints_unary known (prints_literal plain)
  obtain ⟨text, printed, writes⟩ := prints 0
  have same : text = "-(" ++ r.fixed ++ ")" := by
    rw [print, print_nonnegative unsigned, r.fixed_shown] at printed
    exact (Except.ok.inj printed).symm
  have lexes : Lexer.Lexes text.toList e.yield := by
    simpa using writes Lexer.clean_nil .nil
  rw [← same, parseExpression_of_lexes lexes, tree]

end Node

/-! ## Evaluating what is printed -/

/-- A number literal is printed as a text that is evaluated to a number of a given value, and
nothing else happens. -/
def Decimal.PrintsAs (settings : Settings) (level : Int) (scope : ScopeId) (m : Machine)
    (d : Decimal) (v : ℚ) : Prop :=
  ∃ (text : String) (result : Decimal),
    (Node.literal (.number (.finite d))).print level = .ok text ∧
    Eval.evaluateSource settings scope text m = .ok (.number (.finite result)) m ∧
    result.value = v

theorem Decimal.PrintsAs.unique {settings : Settings} {level : Int} {scope : ScopeId} {m : Machine}
    {d : Decimal} {v w : ℚ} (h : d.PrintsAs settings level scope m v)
    (h' : d.PrintsAs settings level scope m w) : v = w := by
  obtain ⟨text, result, printed, evaluated, rfl⟩ := h
  obtain ⟨text', result', printed', evaluated', rfl⟩ := h'
  rw [printed] at printed'
  cases printed'
  rw [evaluated] at evaluated'
  cases evaluated'
  rfl

section Printed

variable {precision : ℕ} {settings : Settings} {d : Decimal}
  (context : settings.context = { precision := precision })
  (short : digitCount d.coefficient ≤ precision) (low : -999999 ≤ d.adjusted)
  (high : d.adjusted ≤ 999999)
include context short

theorem Settings.precise_of_digits : 1 ≤ settings.context.precision := by
  rw [context]
  exact (digitCount_pos d.coefficient).trans_le short

include low high

/-- A literal without a sign is printed as a text of the same value. -/
theorem Decimal.printsAs_value (sign : d.negative = false) (level : Int) (scope : ScopeId)
    (m : Machine) : d.PrintsAs settings level scope m d.value := by
  have represents := Context.represents_of_adjusted short low high
  rw [← context] at represents
  obtain ⟨result, evaluated, same⟩ := Eval.evaluateSource_fixed
    (Settings.precise_of_digits context short) (settings.range_of_context context) represents
    scope m
  exact ⟨_, result, Node.print_nonnegative sign level, evaluated, same⟩

/-- The value of what a literal with a sign is printed as is rounded in the standard context. -/
theorem Decimal.printsAs_rounded (sign : d.negative = true)
    (within : |Context.standard.rounded d.value| < 10 ^ (Context.standard.greatestExponent + 1))
    (level : Int) (scope : ScopeId) (m : Machine) :
    d.PrintsAs settings level scope m (Context.standard.rounded d.value) := by
  have precise := Settings.precise_of_digits context short
  have range := settings.range_of_context context
  have reach :
      settings.context.greatestExponent = Context.standard.greatestExponent := by rw [context]; rfl
  rcases Node.print_negative sign level with
    ⟨beyond, -⟩ | ⟨-, r, printed, unsigned, value, represents⟩
  · exact absurd within (not_lt.mpr beyond)
  -- the digits that are left are no more than the interpreter has
  have settled : settings.context.rounded r.value = r.value := by
    rw [context]
    rcases le_total 28 precision with more | fewer
    · exact (Context.Represents.mono (p := 28) represents more).rounded_value
    · have exact_ : Context.standard.rounded d.value = d.value := by
        refine (Context.rounded_value_eq_iff_digits (p := 28) low).mpr ?_
        rw [Nat.sub_eq_zero_of_le (short.trans fewer), pow_zero]
        exact one_dvd _
      rw [value, exact_, Context.rounded_neg,
        (Context.represents_of_adjusted short low high).rounded_value]
  obtain ⟨result, negated, hresult⟩ := UnaryOp.apply_minus_settled precise range (x := r.shown)
    (by rw [r.value_shown, settled]) (by rw [r.value_shown, value, abs_neg, reach]; exact within)
  refine ⟨_, result, printed,
    Eval.evaluateSource_of_negation (Node.parseExpression_negation unsigned) negated scope m, ?_⟩
  rw [hresult, r.value_shown, value, neg_neg]

end Printed

/-- A number literal whose digits an interpreter has, and whose leading digit is in its range, is
printed as a text that the interpreter evaluates to a number of the same value, if it has no sign or
nothing but zeros behind its twenty-eighth digit, and only then.  In general, what a literal with a
sign is printed as has its value rounded in the standard context, unless that is too large; then it
is not printed. -/
theorem printed_literals_keep_values {precision : ℕ} (settings : Settings)
    (context : settings.context = { precision := precision }) (d : Decimal)
    (short : digitCount d.coefficient ≤ precision) (low : -999999 ≤ d.adjusted)
    (high : d.adjusted ≤ 999999) (level : Int) (scope : ScopeId) (m : Machine) :
    let rounded := Context.standard.rounded d.value
    let reach : ℚ := 10 ^ (Context.standard.greatestExponent + 1)
    (d.PrintsAs settings level scope m d.value ↔
      (d.negative = true → 10 ^ (digitCount d.coefficient - 28) ∣ d.coefficient)) ∧
    (d.negative = true → |rounded| < reach → d.PrintsAs settings level scope m rounded) ∧
    (d.negative = true → reach ≤ |rounded| →
      (Node.literal (.number (.finite d))).print level = .error (.arithmetic .overflow)) := by
  intro rounded reach
  have negative :
      d.negative = true → |rounded| < reach → d.PrintsAs settings level scope m rounded :=
    fun sign within => Decimal.printsAs_rounded context short low high sign within level scope m
  have tooLarge : d.negative = true → reach ≤ |rounded| →
      (Node.literal (.number (.finite d))).print level = .error (.arithmetic .overflow) := by
    intro sign beyond
    rcases Node.print_negative sign level with ⟨-, fails⟩ | ⟨within, -⟩
    · exact fails
    · exact absurd beyond (not_le.mpr within)
  have exact_ : rounded = d.value ↔ 10 ^ (digitCount d.coefficient - 28) ∣ d.coefficient :=
    Context.rounded_value_eq_iff_digits (p := 28) low
  refine ⟨?_, negative, tooLarge⟩
  rw [← exact_]
  cases sign : d.negative with
  | false =>
    exact iff_of_true (Decimal.printsAs_value context short low high sign level scope m) (by simp)
  | true =>
    simp only [true_implies]
    constructor
    · intro printsBack
      rcases lt_or_ge |rounded| reach with within | beyond
      · exact (negative sign within).unique printsBack
      · obtain ⟨text, result, printed, -⟩ := printsBack
        rw [tooLarge sign beyond] at printed
        cases printed
    · intro same
      have within : |rounded| < reach := by
        rw [same]
        exact (Context.represents_of_adjusted short low high).abs_value_lt
      exact same ▸ negative sign within

/-- Minus one and a quarter, in a context of three digits. -/
theorem printed_literals_keep_values_minusQuarters :
    ({ context := { precision := 3 } } : Settings).context = { precision := 3 } ∧
    digitCount 125 ≤ 3 ∧ -999999 ≤ Decimal.adjusted ⟨true, 125, -2⟩ ∧
    Decimal.adjusted ⟨true, 125, -2⟩ ≤ 999999 ∧
    Decimal.PrintsAs { context := { precision := 3 } } 0 globalScope {} ⟨true, 125, -2⟩
      (Decimal.value ⟨true, 125, -2⟩) :=
  ⟨rfl, by decide, by decide, by decide,
    (printed_literals_keep_values { context := { precision := 3 } } rfl ⟨true, 125, -2⟩ (by decide)
      (by decide) (by decide) 0 globalScope {}).1.mpr fun _ => one_dvd _⟩

/-- A literal of thirty-five digits with a sign. -/
def longLiteral : Decimal := ⟨true, 12345678901234567890123456789012345, 0⟩

/-- In a context of fifty digits, the text that the literal is printed as is evaluated to another
number. -/
theorem longLiteral_loses_digits :
    digitCount longLiteral.coefficient ≤ 50 ∧ -999999 ≤ longLiteral.adjusted ∧
    longLiteral.adjusted ≤ 999999 ∧
    ¬longLiteral.PrintsAs { context := { precision := 50 } } 0 globalScope {}
      longLiteral.value := by
  have short : digitCount longLiteral.coefficient ≤ 50 := by decide
  have low : -999999 ≤ longLiteral.adjusted := by decide
  have high : longLiteral.adjusted ≤ 999999 := by decide
  have changed : Context.standard.rounded longLiteral.value ≠ longLiteral.value :=
    mt (Context.rounded_value_eq_iff_digits (p := 28) low).mp (by decide)
  have within : |Context.standard.rounded longLiteral.value| <
      10 ^ (Context.standard.greatestExponent + 1) := by
    rcases Node.print_negative (d := longLiteral) rfl 0 with ⟨-, fails⟩ | ⟨within, -⟩
    · cases fails
    · exact within
  have printsRounded : longLiteral.PrintsAs { context := { precision := 50 } } 0 globalScope {}
      (Context.standard.rounded longLiteral.value) :=
    Decimal.printsAs_rounded rfl short low high rfl within 0 globalScope {}
  exact ⟨short, low, high, fun printsBack => changed (printsRounded.unique printsBack)⟩

end ScopeScript
