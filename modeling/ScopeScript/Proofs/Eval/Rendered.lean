import ScopeScript.Proofs.Eval.Failures
import ScopeScript.Proofs.Number.Order
import ScopeScript.Proofs.Source.RoundTrip
set_option autoImplicit false

/-!
# Eval: rendered values are read back

A rendered text is an expression, and so is a rendered number: a numeral, or a numeral behind a
minus sign.  A numeral is exact, however many zeros it shows, but the minus sign rounds, and so it
gives the number back if the context has it.  The context has all that it computes.
-/

namespace ScopeScript

open Lexer Grammar

/-! ## Parsing -/

/-- A text that splits into the yield of a derivation is parsed to its tree. -/
theorem parseExpression_of_lexes {text : String} {d : Expr} (h : Lexes text.toList d.yield) :
    parseExpression text = .ok d.tree := by
  obtain ⟨tokens, htokens, hlexemes⟩ := tokenize_of_lexes h
  exact parseExpression_eq_ok_iff.mpr ⟨tokens, htokens, d, hlexemes.symm, rfl⟩

theorem parseExpression_quote (content : String) :
    parseExpression (Text.quote content) = .ok (.literal (.text content)) := by
  have lexes := lexes_quote content clean_nil .nil
  have yields :
      Lexes (Text.quote content).toList (Expr.ofSigned (.atom (.text content))).yield := by
    simpa [Signed.yield, Atom.yield] using lexes
  simpa [Signed.tree, Atom.tree] using parseExpression_of_lexes yields

namespace Decimal

variable {d : Decimal}

/-- Without its sign, the number that a text shows is written as a numeral. -/
theorem lexes_abs_shown (d : Decimal) {rest : List Char} {lexemes : List Lexeme}
    (clean : Clean rest) (h : Lexes rest lexemes) :
    Lexes (d.fixedDigits ++ rest) (.number d.shown.abs.fixed :: lexemes) := by
  have digits : d.shown.abs.fixed.toList = d.fixedDigits := by
    rw [fixed_of_nonneg rfl, String.toList_ofList]
    exact d.fixedDigits_shown
  rw [← digits]
  exact lexes_fixed rfl d.exponent_shown_nonpos clean h

theorem read?_abs_shown (d : Decimal) :
    Number.read? d.shown.abs.fixed = some (.finite d.shown.abs) :=
  read?_fixed rfl d.exponent_shown_nonpos

/-- The text of a number is a numeral, or a numeral behind a minus sign. -/
theorem parseExpression_fixed (d : Decimal) :
    parseExpression d.fixed = .ok
      (if d.showsSign then .unary .minus (.literal (.number (.finite d.shown.abs)))
        else .literal (.number (.finite d.shown.abs))) := by
  have lexes := d.lexes_abs_shown clean_nil .nil
  rw [List.append_nil] at lexes
  have text : d.fixed.toList = if d.showsSign then '-' :: d.fixedDigits else d.fixedDigits := by
    rw [fixed, String.toList_ofList]
  cases sign : d.showsSign with
  | false =>
    have yields :
        Lexes d.fixed.toList (Expr.ofSigned (.atom (.number d.shown.abs.fixed))).yield := by
      simpa [text, sign, Signed.yield, Atom.yield] using lexes
    simpa [Signed.tree, Atom.tree, numeralValue, read?_abs_shown] using
      parseExpression_of_lexes yields
  | true =>
    have signed := lexes_ofChar (c := '-') rfl lexes
    have yields : Lexes d.fixed.toList
        (Expr.ofSigned (.sign .minus (.atom (.number d.shown.abs.fixed)))).yield := by
      simpa [text, sign, Signed.yield, Atom.yield, UnarySign.lexeme] using signed
    simpa [Signed.tree, Atom.tree, UnarySign.operator, numeralValue, read?_abs_shown] using
      parseExpression_of_lexes yields

end Decimal

/-! ## Evaluating -/

namespace Eval

variable {settings : Settings} {source : String}

theorem evaluateSource_of_literal {value : Value}
    (h : parseExpression source = .ok (.literal value)) (proper : value.isSentinel = false)
    (scope : ScopeId) (m : Machine) :
    evaluateSource settings scope source m = .ok value m := by
  rw [evaluateSource, h]
  change demand "expression" value m = _
  rw [demand, if_neg (by simp [proper])]
  rfl

theorem evaluateSource_of_negation {n result : Number}
    (h : parseExpression source = .ok (.unary .minus (.literal (.number n))))
    (negated : UnaryOp.minus.apply settings.context (.number n) = .ok (.number result))
    (scope : ScopeId) (m : Machine) :
    evaluateSource settings scope source m = .ok (.number result) m := by
  rw [evaluateSource, h]
  change evaluateValue settings settings.caller scope "expression" _ m = _
  have operand : evaluate settings settings.caller scope (.unary .minus (.literal (.number n))) m =
      .ok (.number result) m := by
    rw [evaluate_unary]
    change ofExcept (UnaryOp.minus.apply settings.context (.number n)) m = _
    rw [negated]
    rfl
  rw [evaluateValue, bind_of_ok operand]
  rfl

end Eval

/-! ## Reading back -/

/-- The exponents of a context are in order, whatever its precision. -/
theorem Settings.range_of_context {settings : Settings} {precision : ℕ}
    (context : settings.context = { precision := precision }) :
    settings.context.leastExponent ≤ settings.context.greatestExponent := by
  rw [context]
  exact (by decide : (-999999 : ℤ) ≤ 999999)

theorem Decimal.value_abs_shown (d : Decimal) :
    d.shown.abs.value = if d.showsSign then -d.value else d.value := by
  rw [← d.value_shown, value_eq, d.shown.value_eq, negative_shown]
  cases d.showsSign with
  | false => rfl
  | true => exact (neg_neg _).symm

/-- The minus sign changes nothing but the sign of a value that needs no rounding. -/
theorem UnaryOp.apply_minus_settled {ctx : Context} (precise : 1 ≤ ctx.precision)
    (range : ctx.leastExponent ≤ ctx.greatestExponent) {x : Decimal}
    (settled : ctx.rounded x.value = x.value)
    (within : |x.value| < 10 ^ (ctx.greatestExponent + 1)) :
    ∃ r : Decimal, UnaryOp.minus.apply ctx (.number (.finite x)) = .ok (.number (.finite r)) ∧
      r.value = -x.value := by
  rcases apply_minus precise range x with ⟨beyond, -⟩ | ⟨-, r, negated, value, -⟩
  · rw [settled] at beyond
    exact absurd within (not_lt.mpr beyond)
  · exact ⟨r, negated, by rw [value, settled]⟩

/-- The text of a number that the context has gives a number of the same value. -/
theorem Eval.evaluateSource_fixed {settings : Settings} (precise : 1 ≤ settings.context.precision)
    (range : settings.context.leastExponent ≤ settings.context.greatestExponent) {d : Decimal}
    (h : settings.context.Represents d) (scope : ScopeId) (m : Machine) :
    ∃ r : Decimal, evaluateSource settings scope d.fixed m = .ok (.number (.finite r)) m ∧
      r.value = d.value := by
  have tree := d.parseExpression_fixed
  have value := d.value_abs_shown
  cases sign : d.showsSign with
  | false =>
    rw [sign] at tree value
    exact ⟨_, evaluateSource_of_literal tree rfl scope m, value⟩
  | true =>
    rw [sign] at tree value
    rw [if_pos rfl] at value
    obtain ⟨r, negated, hr⟩ := UnaryOp.apply_minus_settled precise range
      (x := d.shown.abs) (by rw [value, Context.rounded_neg, h.rounded_value])
      (by rw [value, abs_neg]; exact h.abs_value_lt)
    refine ⟨r, evaluateSource_of_negation tree negated scope m, ?_⟩
    rw [hr, value, neg_neg]

/-- Whether a value is a text, or a number that the context has. -/
def Context.Renders (ctx : Context) : Value → Prop
  | .text _ => True
  | .number (.finite d) => ctx.Represents d
  | _ => False

/-- Arithmetic has results for numbers alone. -/
theorem BinaryOp.operands_of_apply {ctx : Context} {op : BinaryOp} {calculate : ℚ → ℚ → ℚ}
    (h : op.calculation? = some calculate) {host : Host} {a b result : Value}
    (ha : a.isScript = true) (hb : b.isScript = true)
    (ends : op.apply ctx host a b = .ok result) :
    ∃ x y : Decimal, a = .number (.finite x) ∧ b = .number (.finite y) := by
  cases op with
  | add | subtract | multiply | divide =>
    unfold apply at ends
    simp only at ends
    split at ends
    · obtain ⟨x, rfl⟩ := (Value.allowed_of_isScript ha).finite
      obtain ⟨y, rfl⟩ := (Value.allowed_of_isScript hb).finite
      exact ⟨x, y, rfl, rfl⟩
    · cases ends
  | _ => cases h

section Results

variable {ctx : Context} (precise : 1 ≤ ctx.precision)
  (range : ctx.leastExponent ≤ ctx.greatestExponent)
include precise range

/-- What arithmetic computes, the context has. -/
theorem BinaryOp.renders_apply {op : BinaryOp} {calculate : ℚ → ℚ → ℚ}
    (h : op.calculation? = some calculate) {host : Host} {a b result : Value}
    (ha : a.isScript = true) (hb : b.isScript = true)
    (ends : op.apply ctx host a b = .ok result) : ctx.Renders result := by
  obtain ⟨x, y, rfl, rfl⟩ := operands_of_apply h ha hb ends
  by_cases zero : op = .divide ∧ y.value = 0
  · obtain ⟨rfl, hy⟩ := zero
    rw [apply_divide_zero hy] at ends
    cases ends
  · obtain ⟨d, -, rounded⟩ : ∃ d : Decimal,
        ctx.rounded d.value = ctx.rounded (calculate x.value y.value) ∧
          op.apply ctx host (.number (.finite x)) (.number (.finite y)) = op.ending (ctx.round d) :=
      apply_eq_round precise h fun division none => zero ⟨division, none⟩
    rw [rounded] at ends
    cases hround : ctx.round d with
    | error signal =>
      rw [hround] at ends
      cases ends
    | ok r =>
      rw [hround] at ends
      cases ends
      exact Context.represents_of_round precise range hround

theorem UnaryOp.renders_apply_minus {operand result : Value} (h : operand.isScript = true)
    (ends : UnaryOp.minus.apply ctx operand = .ok result) : ctx.Renders result := by
  cases operand with
  | number n =>
    obtain ⟨d, rfl⟩ := (Value.allowed_of_isScript h).finite
    rcases apply_minus precise range d with ⟨-, fails⟩ | ⟨-, r, negated, -, represents⟩
    · rw [fails] at ends
      cases ends
    · rw [negated] at ends
      cases ends
      exact represents
  | _ => cases ends

end Results

/-- A text, or a number that the context has, is rendered as an expression; from any scope and in
any state, that is evaluated to a value of the same type, equal to the one rendered, and nothing
else happens.  All results of arithmetic and of the minus sign are among the numbers that the
context has. -/
theorem rendered_values_read_back {precision : ℕ} (precise : 1 ≤ precision) (settings : Settings)
    (context : settings.context = { precision := precision }) :
    (∀ value : Value, settings.context.Renders value → ∀ (scope : ScopeId) (m : Machine),
      ∃ result, Eval.evaluateSource settings scope value.render m = .ok result m ∧
        result.typeName = value.typeName ∧
        value.equal (settings.host m) result = .ok true) ∧
    (∀ (op : BinaryOp) (calculate : ℚ → ℚ → ℚ), op.calculation? = some calculate →
      ∀ (host : Host) (a b result : Value), a.isScript = true → b.isScript = true →
        op.apply settings.context host a b = .ok result → settings.context.Renders result) ∧
    ∀ operand result : Value, operand.isScript = true →
      UnaryOp.minus.apply settings.context operand = .ok result →
      settings.context.Renders result := by
  have precise : 1 ≤ settings.context.precision := by rwa [context]
  have range := settings.range_of_context context
  refine ⟨?_, ?_, ?_⟩
  · intro value renders scope m
    cases value with
    | text content =>
      refine ⟨.text content, ?_, rfl, by simp [Value.equal]⟩
      exact Eval.evaluateSource_of_literal (parseExpression_quote content) rfl scope m
    | number n =>
      cases n with
      | finite d =>
        obtain ⟨r, evaluated, same⟩ := Eval.evaluateSource_fixed precise range renders scope m
        refine ⟨.number (.finite r), evaluated, rfl, ?_⟩
        rw [Value.equal, Number.equalOrInvalid_finite, decide_eq_true same.symm]
      | _ => exact renders.elim
    | _ => exact renders.elim
  · intro op calculate h host a b result ha hb ends
    exact BinaryOp.renders_apply precise range h ha hb ends
  · intro operand result h ends
    exact UnaryOp.renders_apply_minus precise range h ends

/-- The negation of one hundred million, in a context of three digits. -/
theorem rendered_values_read_back_hundredMillion :
    1 ≤ 3 ∧ ({ context := { precision := 3 } } : Settings).context = { precision := 3 } ∧
    UnaryOp.minus.apply { precision := 3 } (.number (.finite ⟨false, 100, 6⟩)) =
      .ok (.number (.finite ⟨true, 100, 6⟩)) ∧
    ∃ result, Eval.evaluateSource { context := { precision := 3 } } globalScope
        (Value.number (.finite ⟨true, 100, 6⟩)).render {} = .ok result {} ∧
      result.typeName = "Number" ∧
      (Value.number (.finite ⟨true, 100, 6⟩)).equal
        (({ context := { precision := 3 } } : Settings).host {}) result = .ok true := by
  obtain ⟨readBack, -, negations⟩ := rendered_values_read_back (by decide : 1 ≤ 3)
    { context := { precision := 3 } } rfl
  have renders : ({ precision := 3 } : Context).Renders (.number (.finite ⟨true, 100, 6⟩)) :=
    negations (.number (.finite ⟨false, 100, 6⟩)) _ rfl rfl
  exact ⟨by decide, rfl, rfl, readBack _ renders globalScope {}⟩

end ScopeScript
