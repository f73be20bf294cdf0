import ScopeScript.Proofs.Number.Rounding
set_option autoImplicit false

/-!
# Number: the numbers of a context

Of all decimals, a context has those with few enough digits between its last decimal place and its
greatest exponent.  Every result of rounding is one of them, and their values are rounded to
themselves.
-/

namespace ScopeScript

namespace Context

/-- A context has a decimal: its digits lie in the range of the context, and there are no more of
them than the precision. -/
structure Represents (ctx : Context) (d : Decimal) : Prop where
  short : digitCount d.coefficient ≤ ctx.precision
  fine : ctx.tiny ≤ d.exponent
  reach : d.adjusted ≤ ctx.greatestExponent

variable {ctx : Context} {d x : Decimal}

/-- The values that are rounded to themselves are the multiples of the places where they are
rounded. -/
theorem rounded_eq_self_iff {v : ℚ} : ctx.rounded v = v ↔ ∃ n : ℤ, v = n * 10 ^ ctx.place v := by
  constructor
  · intro h
    exact ⟨halfEven (v / 10 ^ ctx.place v), h.symm⟩
  · rintro ⟨n, hn⟩
    have fine : ctx.place (n * 10 ^ ctx.place v) ≤ ctx.place v := by rw [← hn]
    have multiple := rounded_eq_self fine
    rwa [← hn] at multiple

/-- Rounding leaves the value of a decimal if it takes away nothing but zeros. -/
theorem rounded_value_eq_iff (d : Decimal) :
    ctx.rounded d.value = d.value ↔
      10 ^ (ctx.lastPlace d - d.exponent).toNat ∣ d.coefficient := by
  by_cases zero : d.coefficient = 0
  · rw [Decimal.value_of_coefficient_eq_zero zero, rounded_zero, zero]
    exact iff_of_true rfl (dvd_zero _)
  rw [rounded_eq_self_iff, ← lastPlace_eq zero, d.value_eq_units]
  generalize ctx.lastPlace d = place
  have scale := ten_zpow_pos d.exponent
  rcases le_or_gt place d.exponent with fine | coarse
  · have none : (place - d.exponent).toNat = 0 := by omega
    rw [none, pow_zero]
    refine iff_of_true ⟨d.units * (Nat.pow 10 (d.exponent - place).toNat : ℕ), ?_⟩ (one_dvd _)
    rw [ten_zpow_units fine]
    push_cast
    ring
  · have units : ∀ n : ℤ, (d.units : ℚ) * 10 ^ d.exponent = n * 10 ^ place ↔
        d.units = 10 ^ (place - d.exponent).toNat * n := by
      intro n
      rw [ten_zpow_units coarse.le, ← mul_assoc, mul_left_inj' scale.ne', mul_comm (n : ℚ)]
      exact_mod_cast Iff.rfl
    simp only [units]
    rw [← d.natAbs_units, ← Int.natCast_dvd]
    push_cast
    exact Iff.rfl

namespace Represents

theorem abs_value_lt (h : ctx.Represents d) : |d.value| < 10 ^ (ctx.greatestExponent + 1) := by
  have reach := h.reach
  rw [d.abs_value]
  exact d.magnitude_lt.trans_le (zpow_le_zpow_right₀ (by norm_num) (by omega))

/-- What a context has is not rounded any further. -/
theorem rounded_value (h : ctx.Represents d) : ctx.rounded d.value = d.value := by
  have last : (ctx.lastPlace d - d.exponent).toNat = 0 := by
    have short := h.short
    have fine := h.fine
    simp only [lastPlace]
    omega
  rw [rounded_value_eq_iff, last]
  exact one_dvd _

end Represents

theorem checkOverflow_eq_ok_iff :
    ctx.checkOverflow x = .ok d ↔ x = d ∧ x.adjusted ≤ ctx.greatestExponent := by
  unfold checkOverflow
  split
  · rename_i high
    exact iff_of_false (by simp) fun h => not_lt.mpr h.2 high
  · rename_i low
    simp [not_lt.mp low]

/-- What rounding leaves: a zero with another exponent, or digits that do not end behind the last
place of the context. -/
theorem round_eq_ok (h : ctx.round x = .ok d) :
    d.negative = x.negative ∧
      (d.coefficient = 0 ∧ d.exponent = min (max x.exponent ctx.tiny) ctx.greatestExponent ∨
        ctx.lastPlace x ≤ d.exponent ∧ d.adjusted ≤ ctx.greatestExponent) := by
  unfold round at h
  split at h
  · rename_i zero
    cases h
    exact ⟨rfl, .inl ⟨zero, rfl⟩⟩
  dsimp only at h
  split at h
  · cases early : ctx.checkOverflow x with
    | error signal =>
      rw [early] at h
      cases h
    | ok unrounded =>
      rw [early] at h
      change (if _ then _ else _) = _ at h
      split at h
      all_goals
        obtain ⟨rfl, reach⟩ := checkOverflow_eq_ok_iff.mp h
        exact ⟨rfl, .inr ⟨by dsimp only; omega, reach⟩⟩
  · rename_i fine
    obtain ⟨rfl, reach⟩ := checkOverflow_eq_ok_iff.mp h
    exact ⟨rfl, .inr ⟨by omega, reach⟩⟩

/-- A number is negated by rounding a decimal of the opposite value, which has no sign if the number
has one. -/
theorem negate_finite (ctx : Context) (x : Decimal) :
    ∃ y : Decimal, y.value = -x.value ∧ (x.negative = true → y.negative = false) ∧
      ctx.negate (.finite x) = Number.finite <$> ctx.round y := by
  refine ⟨if x.isZero then x.abs else x.flip, ?_, ?_, rfl⟩
  · split
    · rename_i zero
      have none : x.coefficient = 0 := beq_iff_eq.mp zero
      rw [Decimal.value_of_coefficient_eq_zero none, neg_zero]
      exact Decimal.value_of_coefficient_eq_zero none
    · exact x.value_flip
  · intro sign
    split
    · rfl
    · simp [Decimal.flip, sign]

variable (precise : 1 ≤ ctx.precision) (range : ctx.leastExponent ≤ ctx.greatestExponent)
include precise range

theorem represents_of_round (h : ctx.round x = .ok d) : ctx.Represents d := by
  have tiny : ctx.tiny ≤ ctx.greatestExponent := by
    simp only [Context.tiny]
    omega
  have outcome := rounds_round precise range x
  rw [h] at outcome
  cases outcome with
  | number _ _ short =>
    rcases (round_eq_ok h).2 with ⟨zero, exponent⟩ | ⟨fine, reach⟩
    · have one : digitCount 0 = 1 := rfl
      refine ⟨short, by omega, ?_⟩
      simp only [Decimal.adjusted, zero, one]
      omega
    · exact ⟨short, (le_max_right _ _).trans fine, reach⟩

/-- The negation of a number is the opposite of its rounded value, unless that is too large. -/
theorem negate_outcome (x : Decimal) :
    (10 ^ (ctx.greatestExponent + 1) ≤ |ctx.rounded x.value| ∧
      ctx.negate (.finite x) = .error .overflow) ∨
    (|ctx.rounded x.value| < 10 ^ (ctx.greatestExponent + 1) ∧
      ∃ r : Decimal, ctx.negate (.finite x) = .ok (.finite r) ∧
        (x.negative = true → r.negative = false) ∧ r.value = -ctx.rounded x.value ∧
        ctx.Represents r) := by
  obtain ⟨y, opposite, unsigned, negated⟩ := ctx.negate_finite x
  have outcome := rounds_round precise range y
  rw [opposite, rounded_neg] at outcome
  rw [negated]
  cases hround : ctx.round y with
  | error signal =>
    rw [hround] at outcome
    cases outcome with
    | overflow beyond => exact .inl ⟨by rwa [abs_neg] at beyond, rfl⟩
  | ok r =>
    rw [hround] at outcome
    cases outcome with
    | number within value _ =>
      have represents := represents_of_round precise range hround
      have sign := (round_eq_ok hround).1
      exact .inr ⟨by rwa [abs_neg] at within, r, rfl, fun signed => sign.trans (unsigned signed),
        value, represents⟩

end Context

end ScopeScript
