import ScopeScript.Eval.Operator
set_option autoImplicit false

/-!
# Eval: what operators give

`and` and `or` give one of their operands or `False`.  All other operators compute a truth value or
a number.
-/

namespace ScopeScript

/-- Whether a value is of a variant that operators compute. -/
def Value.isComputed : Value → Bool
  | .boolean _ | .number _ => true
  | _ => false

variable {ctx : Context} {result : Value}

theorem UnaryOp.isComputed_apply {op : UnaryOp} {operand : Value}
    (h : op.apply ctx operand = .ok result) : result.isComputed = true := by
  unfold UnaryOp.apply at h
  split at h
  · obtain ⟨truth, -, h⟩ := bind_eq_ok.mp h
    cases h
    rfl
  · cases h
    rfl
  · split at h
    · cases h
      rfl
    · cases h
  · cases h
  · cases h

namespace BinaryOp

theorem isComputed_arithmetic {op : BinaryOp} {x y : Number}
    (h : op.arithmetic ctx x y = .ok result) : result.isComputed = true := by
  unfold arithmetic at h
  split at h
  iterate 3
    · dsimp only at h
      split at h
      · cases h
        rfl
      · cases h
  · split at h
    · cases h
    · split at h
      · cases h
      · dsimp only at h
        split at h
        · cases h
          rfl
        · cases h
  · cases h

/-- The result of an operator is one of its operands or computed. -/
theorem apply_result {host : Host} {op : BinaryOp} {a b : Value}
    (h : op.apply ctx host a b = .ok result) :
    result = a ∨ result = b ∨ result.isComputed = true := by
  have truth : ∀ {compared : Except Error Bool} {f : Bool → Bool},
      (do let truth ← compared; Except.ok (Value.boolean (f truth))) = .ok result →
      result.isComputed = true := by
    intro compared f h
    obtain ⟨truth, -, h⟩ := bind_eq_ok.mp h
    cases h
    rfl
  cases op with
  | and =>
    obtain ⟨truthA, -, h⟩ := bind_eq_ok.mp h
    cases truthA with
    | false =>
      cases h
      exact .inr (.inr rfl)
    | true =>
      obtain ⟨truthB, -, h⟩ := bind_eq_ok.mp h
      cases truthB with
      | false =>
        cases h
        exact .inr (.inr rfl)
      | true =>
        cases h
        exact .inr (.inl rfl)
  | or =>
    obtain ⟨truthA, -, h⟩ := bind_eq_ok.mp h
    cases truthA with
    | true =>
      cases h
      exact .inl rfl
    | false =>
      obtain ⟨truthB, -, h⟩ := bind_eq_ok.mp h
      cases truthB with
      | true =>
        cases h
        exact .inr (.inl rfl)
      | false =>
        cases h
        exact .inr (.inr rfl)
  | equal => exact .inr (.inr (truth (f := id) h))
  | unequal => exact .inr (.inr (truth (f := (! ·)) h))
  | less => exact .inr (.inr (truth (f := id) h))
  | greater => exact .inr (.inr (truth (f := id) h))
  | add | subtract | multiply | divide | other =>
    unfold apply at h
    simp only at h
    split at h
    · exact .inr (.inr (isComputed_arithmetic h))
    · cases h

end BinaryOp

end ScopeScript
