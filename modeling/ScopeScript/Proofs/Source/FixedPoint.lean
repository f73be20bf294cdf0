import Mathlib.Data.Set.Function
import ScopeScript.Proofs.Number.Shown
import ScopeScript.Proofs.Source.Partition
set_option autoImplicit false

/-!
# Source: fixed-point texts

The text of a number is a numeral, or a numeral behind a minus sign.  Other than a numeral of a
source it has digits on both sides of its point, if it has one.  A source that holds the numeral
alone has one token, and what is read from the whole text has the value of the number.

Only a positive exponent and the sign of a zero without decimals are lost on the way.  So of the
numbers without either, no two have the same text.
-/

namespace ScopeScript

namespace Lexer

/-- Digits, and where there is a point, digits on both sides of it. -/
inductive IsFixedPoint : List Char → Prop
  | whole {digits : List Char} (all : ∀ c ∈ digits, isDigit c = true) (some_ : digits ≠ []) :
      IsFixedPoint digits
  | point {whole places : List Char} (all : ∀ c ∈ whole, isDigit c = true)
      (all' : ∀ c ∈ places, isDigit c = true) (some_ : whole ≠ []) (some' : places ≠ []) :
      IsFixedPoint (whole ++ '.' :: places)

theorem IsFixedPoint.isNumeral {text : List Char} (h : IsFixedPoint text) : IsNumeral text := by
  cases h with
  | whole all some_ => exact .whole all some_
  | point all all' some_ some' => exact .point all all' (.inl some_)

/-- A numeral is the only token of a source that holds nothing else. -/
theorem tokenize_numeral {numeral : String} (h : IsNumeral numeral.toList) :
    tokenize numeral = .ok [⟨.number numeral, {}⟩] := by
  have tiled : Tiled Stopped [] ([] ++ (numeral.toList ++ []))
      [⟨.number numeral, .behind ([] ++ [])⟩] :=
    .token (by simp [Text.Blanks]) ⟨h, rfl⟩ h.ne_nil (Lexeme.stops_nil _)
      (.finish (by simp [Text.Blanks]))
  have first : Position.behind [] = {} := rfl
  simpa [first] using tokenize_of_tiled tiled

end Lexer

namespace Decimal

/-- The digits of a magnitude are a numeral with digits on both sides of its point. -/
theorem isFixedPoint_fixedDigits (d : Decimal) : Lexer.IsFixedPoint d.fixedDigits := by
  rcases Int.lt_or_le d.exponent 0 with point | whole
  · obtain ⟨whole, places, zeros, hdigits, some_, hpadded, hlength⟩ := fixedDigits_point point
    have digits : ∀ c ∈ whole ++ places, Lexer.isDigit c = true := by
      intro c hc
      rw [hpadded] at hc
      rw [Lexer.isDigit_eq]
      exact isDigit_of_mem_padded hc
    have some' : places ≠ [] := by
      rintro rfl
      simp only [List.length_nil] at hlength
      omega
    rw [hdigits]
    exact .point (fun c hc => digits c (List.mem_append_left _ hc))
      (fun c hc => digits c (List.mem_append_right _ hc)) some_ some'
  · rw [fixedDigits_of_nonneg whole]
    refine .whole (fun c hc => ?_) Nat.toDigits_ne_nil
    rw [Lexer.isDigit_eq]
    exact Nat.isDigit_of_mem_toDigits (by decide) (by decide) hc

/-- The text of a number is that of its magnitude, perhaps behind a minus sign. -/
theorem fixed_eq_append (d : Decimal) :
    d.fixed = (if d.showsSign then "-" else "") ++ String.ofList d.fixedDigits := by
  rw [fixed]
  split <;> simp

/-- Numbers with the same text show the same number. -/
theorem shown_inj {d d' : Decimal} (same : d.fixed = d'.fixed) : d.shown = d'.shown := by
  have reads := d.read?_fixed_eq_shown
  rw [same, d'.read?_fixed_eq_shown] at reads
  exact (Number.finite.inj (Option.some.inj reads)).symm

end Decimal

/-- The text of any number is a numeral, or a numeral behind a minus sign.  The numeral has digits
on both sides of its point, if it has one, and is the only token of a source that holds nothing
else.  The text is read as a number of the same value, and as the very same number if its exponent
is not positive and it is not the negative zero without decimals.  No two such numbers have the same
text; without a sign, all numbers with an exponent that is not positive are such. -/
theorem fixed_point_texts_are_exact :
    (∀ d : Decimal, ∃ sign body : String, (sign = "" ∨ sign = "-") ∧ d.fixed = sign ++ body ∧
      Lexer.IsFixedPoint body.toList ∧ tokenize body = .ok [⟨.number body, {}⟩] ∧
      ∃ r : Decimal, Number.read? d.fixed = some (.finite r) ∧ r.value = d.value ∧
        (d.exponent ≤ 0 → d ≠ ⟨true, 0, 0⟩ → r = d)) ∧
    Set.InjOn Decimal.fixed {d | d.exponent ≤ 0 ∧ d ≠ ⟨true, 0, 0⟩} := by
  constructor
  · intro d
    have digits : Lexer.IsFixedPoint (String.ofList d.fixedDigits).toList := by
      rw [String.toList_ofList]
      exact d.isFixedPoint_fixedDigits
    refine ⟨if d.showsSign then "-" else "", String.ofList d.fixedDigits, ?_, d.fixed_eq_append,
      digits, Lexer.tokenize_numeral digits.isNumeral, d.shown, d.read?_fixed_eq_shown,
      d.value_shown, Decimal.shown_eq_self_of_ne⟩
    split
    · exact .inr rfl
    · exact .inl rfl
  · rintro d ⟨small, other⟩ d' ⟨small', other'⟩ same
    have shown := Decimal.shown_inj same
    rwa [Decimal.shown_eq_self_of_ne small other, Decimal.shown_eq_self_of_ne small' other']
      at shown

/-- A negative number below one, and two numbers of the same value with different texts. -/
theorem fixed_point_texts_are_exact_minusThousandths :
    (∃ r : Decimal, Number.read? (⟨true, 5, -3⟩ : Decimal).fixed = some (.finite r) ∧
      r = ⟨true, 5, -3⟩) ∧
    (⟨false, 150, -2⟩ : Decimal).fixed ≠ (⟨false, 15, -1⟩ : Decimal).fixed := by
  obtain ⟨exact_, injective⟩ := fixed_point_texts_are_exact
  constructor
  · obtain ⟨sign, body, -, -, -, -, r, reads, -, same⟩ := exact_ ⟨true, 5, -3⟩
    exact ⟨r, reads, same (by decide) (by decide)⟩
  · intro same
    have equal := injective (by decide : (-2 : ℤ) ≤ 0 ∧ (⟨false, 150, -2⟩ : Decimal) ≠ ⟨true, 0, 0⟩)
      (by decide : (-1 : ℤ) ≤ 0 ∧ (⟨false, 15, -1⟩ : Decimal) ≠ ⟨true, 0, 0⟩) same
    exact absurd equal (by decide)

end ScopeScript
