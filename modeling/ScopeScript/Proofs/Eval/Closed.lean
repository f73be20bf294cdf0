import ScopeScript.Proofs.Eval.Activity
import ScopeScript.Proofs.Scope.Holding
import ScopeScript.Proofs.Tree.Plain
set_option autoImplicit false

/-!
# Eval: scripts compute with script values only

A call may end without a value, and then it stands for a sentinel.  Wherever a value is used, the
sentinel is refused, so none is ever bound, passed on or given back, and no operator meets one.  By
the same token no number that is not finite comes about, and no handle but those that the host bound
in the beginning.

The invariant is about all scopes at once: what they bind is allowed, and the functions among it
have bodies whose literals are plain.  Here is what values, operators and properties contribute to
it; that runs keep it is shown in `ScopeScript.Proofs.Eval.ClosedRun`.
-/

namespace ScopeScript

/-! ## Allowed values -/

/-- Whether the error says that a sentinel was used as a value. -/
def Error.isInternal : Error → Bool
  | .sentinelTruth _ | .sentinelEquality => true
  | _ => false

/-- Whether an error has its cause in the interpreter or in a tree that is not well-formed, and not
in what a script does: an operation was asked of something that does not have it. -/
def Error.isDefect : Error → Bool
  | .sentinelTruth _ | .sentinelEquality
  | .notStatement _ | .notExpression _ | .unaryOperator _ | .binaryOperator _
  | .notPrintable _ | .notStorable _ | .notLiteral _ | .notTree | .wrongShape
  | .missingEntry | .missingPart => true
  | _ => false

theorem Error.isInternal_of_isDefect {error : Error} (h : error.isDefect = false) :
    error.isInternal = false := by
  cases error <;> first | rfl | cases h

/-- A value that scripts compute with; a handle has to be among given ones. -/
structure Value.Allowed (handles : Value → Prop) (value : Value) : Prop where
  script : value.isScript = true
  handle : ∀ target copy, value = .handle target copy → handles value

/-- Everything that the scopes bind is allowed, and the literals of the functions they keep are
plain. -/
structure Scopes.Closed (handles : Value → Prop) (scopes : Scopes) : Prop where
  bindings : ∀ id, ∀ entry ∈ (scopes.get id).bindings, entry.2.value.Allowed handles
  functions : ∀ id, ∀ entry ∈ (scopes.get id).functions, entry.2.body.isPlain = true

namespace Value

variable {handles : Value → Prop}

theorem allowed_of_isPlain {value : Value} (h : value.isPlain = true) : value.Allowed handles := by
  cases value with
  | boolean b => exact ⟨rfl, by simp⟩
  | text s => exact ⟨rfl, by simp⟩
  | number n => exact ⟨h, by simp⟩
  | _ => simp [isPlain] at h

theorem allowed_boolean (b : Bool) : (Value.boolean b).Allowed handles := allowed_of_isPlain rfl

theorem Allowed.not_isSentinel {value : Value} (h : value.Allowed handles) :
    value.isSentinel = false := by
  have := h.script
  cases value <;> simp_all [isSentinel, isScript]

/-- What a script reads of a host is plain. -/
theorem isPlain_ofHost {value result : Value} (h : value.ofHost = .ok result) :
    result.isPlain = true := by
  unfold ofHost at h
  split at h
  · cases h
    rfl
  · split at h
    · cases h
      rfl
    · split at h <;> cases h
  · split at h
    · rename_i finite
      cases h
      exact finite
    · cases h
  · cases h
    rfl
  · cases h

/-- What a script cannot read of a host has no conversion, or it is an integer that cannot even be
shown. -/
theorem ofHost_error_cases {value : Value} {error : Error} (h : value.ofHost = .error error) :
    (∃ source, error = .conversion source) ∨
      error = .wrongValue ∧ ∃ n, value = .integer n ∧ mostShownDigits < digitCount n.natAbs := by
  unfold ofHost at h
  split at h
  · cases h
  · rename_i n
    split at h
    · cases h
    · split at h
      · rename_i long
        cases h
        exact .inr ⟨rfl, n, rfl, long⟩
      · cases h
        exact .inl ⟨_, rfl⟩
  · split at h
    · cases h
    · cases h
      exact .inl ⟨_, rfl⟩
  · cases h
  · cases h
    exact .inl ⟨_, rfl⟩

theorem ofHost_error {value : Value} {error : Error} (h : value.ofHost = .error error) :
    error.isDefect = false := by
  rcases ofHost_error_cases h with ⟨source, rfl⟩ | ⟨rfl, -⟩ <;> rfl

end Value

/-! ## Scopes -/

theorem Scopes.lookup_error {scopes : Scopes} {id : ScopeId} {name : Name} {error : Error}
    (h : scopes.lookup id name = .error error) : error = .unbound name := by
  unfold Scopes.lookup at h
  split at h
  · cases h
  · cases h
    rfl

/-! ## Operators -/

/-- Whether a computation gives an allowed value or an error that no sentinel causes. -/
def Gives (handles : Value → Prop) : Except Error Value → Prop
  | .ok value => value.Allowed handles
  | .error error => error.isInternal = false

theorem Gives.allowed {handles : Value → Prop} {result : Except Error Value} {value : Value}
    (gives : Gives handles result) (h : result = .ok value) : value.Allowed handles := by
  rw [h] at gives
  exact gives

namespace Value

variable {handles : Value → Prop} {a b : Value}

theorem isTruthy_of_not_isSentinel {value : Value} (h : value.isSentinel = false) :
    ∃ truth, value.isTruthy = .ok truth := by
  cases value with
  | sentinel s => cases h
  | boolean b => exact ⟨b, rfl⟩
  | _ => exact ⟨true, rfl⟩

theorem Allowed.isTruthy (h : a.Allowed handles) : ∃ truth, a.isTruthy = .ok truth :=
  isTruthy_of_not_isSentinel h.not_isSentinel

/-- Any two values that scripts compute with can be compared for equality. -/
theorem Allowed.exists_equal (ha : a.Allowed handles) (hb : b.Allowed handles) (host : Host) :
    ∃ result, a.equal host b = .ok result := by
  have scriptA := ha.script
  have scriptB := hb.script
  have finite : ∀ x y : Decimal, ∃ result,
      Number.equalOrInvalid (.finite x) (.finite y) = .ok result := fun _ _ => ⟨_, rfl⟩
  cases a with
  | number x =>
    cases b with
    | number y =>
      cases x <;> cases y <;> first | exact finite _ _ | simp_all [isScript, Number.isFinite]
    | _ => simp_all [isScript, Value.equal, typeName]
  | _ => cases b <;> simp_all [isScript, Value.equal, typeName]

theorem less_error {operator : String} {error : Error}
    (h : Value.less operator a b = .error error) : error.isDefect = false := by
  unfold Value.less at h
  split at h
  · split at h
    · cases h
    · cases h
      rfl
  · cases h
  · cases h
    rfl

end Value

namespace Context

/-- Rounding gives finite numbers. -/
theorem roundNumber_finite {ctx : Context} {d : Decimal} {result : Number}
    (h : ctx.roundNumber d = .ok result) : result.isFinite = true := by
  unfold roundNumber at h
  cases hround : ctx.round d with
  | ok rounded =>
    rw [hround] at h
    cases h
    rfl
  | error signal =>
    rw [hround] at h
    cases h

end Context

section Operators

variable {handles : Value → Prop}

theorem Value.Allowed.finite {n : Number} (h : (Value.number n).Allowed handles) :
    ∃ d, n = .finite d := by
  have finite := h.script
  cases n with
  | finite d => exact ⟨d, rfl⟩
  | _ => simp [Value.isScript, Number.isFinite] at finite

theorem UnaryOp.gives_apply (ctx : Context) (op : UnaryOp) {operand : Value}
    (h : operand.Allowed handles) : Gives handles (op.apply ctx operand) := by
  unfold UnaryOp.apply
  split
  · obtain ⟨truth, htruth⟩ := h.isTruthy
    rw [htruth]
    exact Value.allowed_boolean _
  · exact h
  · obtain ⟨d, rfl⟩ := h.finite
    split
    · rename_i result hresult
      exact Value.allowed_of_isPlain (Context.roundNumber_finite hresult)
    · rfl
  · rfl
  · rfl

/-- With finite operands, arithmetic gives a finite number or one of the errors of arithmetic. -/
theorem BinaryOp.gives_arithmetic (ctx : Context) (op : BinaryOp) (x y : Decimal) :
    Gives handles (op.arithmetic ctx (.finite x) (.finite y)) := by
  have harmless : ∀ signal, (op.arithmeticError signal).isInternal = false := by
    intro signal
    cases signal <;> rfl
  have rounded : ∀ {d : Decimal} {n : Number}, ctx.roundNumber d = .ok n →
      Gives handles (.ok (.number n)) := by
    intro d n h
    exact Value.allowed_of_isPlain (Context.roundNumber_finite h)
  unfold BinaryOp.arithmetic
  split
  iterate 3
    · dsimp only
      split
      · rename_i h
        exact rounded h
      · exact harmless _
  · split
    · rfl
    · split
      · rfl
      · dsimp only
        split
        · rename_i h
          exact rounded h
        · exact harmless _
  · rfl

theorem BinaryOp.gives_apply (ctx : Context) (host : Host) (op : BinaryOp) {a b : Value}
    (ha : a.Allowed handles) (hb : b.Allowed handles) : Gives handles (op.apply ctx host a b) := by
  obtain ⟨truthA, htruthA⟩ := ha.isTruthy
  obtain ⟨truthB, htruthB⟩ := hb.isTruthy
  have compared : ∀ {result : Except Error Bool} (f : Bool → Bool),
      (∀ error, result = .error error → error.isInternal = false) →
      Gives handles (do let truth ← result; .ok (.boolean (f truth))) := by
    intro result f harmless
    cases result with
    | ok truth => exact Value.allowed_boolean _
    | error error => exact harmless error rfl
  cases op with
  | and =>
    unfold BinaryOp.apply
    rw [htruthA, htruthB]
    cases truthA with
    | true =>
      cases truthB with
      | true => exact hb
      | false => exact Value.allowed_boolean false
    | false => exact Value.allowed_boolean false
  | or =>
    unfold BinaryOp.apply
    rw [htruthA, htruthB]
    cases truthA with
    | true => exact ha
    | false =>
      cases truthB with
      | true => exact hb
      | false => exact Value.allowed_boolean false
  | equal | unequal =>
    obtain ⟨truth, htruth⟩ := ha.exists_equal hb host
    unfold BinaryOp.apply
    rw [htruth]
    exact Value.allowed_boolean _
  | less => exact compared id fun _ h => Error.isInternal_of_isDefect (Value.less_error h)
  | greater => exact compared id fun _ h => Error.isInternal_of_isDefect (Value.less_error h)
  | add | subtract | multiply | divide | other =>
    unfold BinaryOp.apply
    simp only
    split
    · obtain ⟨x, rfl⟩ := ha.finite
      obtain ⟨y, rfl⟩ := hb.finite
      exact BinaryOp.gives_arithmetic ctx _ x y
    · rfl

/-- Nothing goes wrong in rounding but that a result is too large. -/
theorem Context.round_error {ctx : Context} {d : Decimal} {signal : Signal}
    (h : ctx.round d = .error signal) : signal = .overflow := by
  have check : ∀ {e : Decimal}, ctx.checkOverflow e = .error signal → signal = .overflow := by
    intro e h
    unfold checkOverflow at h
    split at h
    · cases h
      rfl
    · cases h
  unfold round at h
  split at h
  · cases h
  dsimp only at h
  split at h
  · cases early : ctx.checkOverflow d with
    | error other =>
      rw [early] at h
      cases h
      exact check early
    | ok unrounded =>
      rw [early] at h
      change (if _ then _ else _) = _ at h
      split at h <;> exact check h
  · exact check h

/-- What goes wrong in arithmetic on finite numbers is the script's fault. -/
theorem BinaryOp.arithmetic_fault {ctx : Context} {op : BinaryOp}
    (known : op ∈ [.add, .subtract, .multiply, .divide]) {x y : Decimal} {error : Error}
    (h : op.arithmetic ctx (.finite x) (.finite y) = .error error) : error.isScript = true := by
  have rounded : ∀ {d : Decimal} {signal : Signal},
      ctx.roundNumber d = .error signal → (op.arithmeticError signal).isScript = true := by
    intro d signal h
    unfold Context.roundNumber at h
    cases hround : ctx.round d with
    | ok result =>
      rw [hround] at h
      cases h
    | error other =>
      rw [hround] at h
      cases h
      rw [Context.round_error hround]
      rfl
  cases op with
  | add | subtract | multiply =>
    unfold arithmetic at h
    dsimp only at h
    split at h
    · cases h
    · rename_i hresult
      cases h
      exact rounded hresult
  | divide =>
    simp only [arithmetic, Number.isSignaling, Bool.false_eq_true, if_false] at h
    split at h
    · cases h
      rfl
    · split at h
      · cases h
      · rename_i hresult
        cases h
        exact rounded hresult
  | _ => simp at known

theorem Value.Allowed.less_fault {a b : Value} (ha : a.Allowed handles) (hb : b.Allowed handles)
    {operator : String} {error : Error} (h : Value.less operator a b = .error error) :
    error.isScript = true := by
  unfold Value.less at h
  split at h
  · obtain ⟨x, rfl⟩ := ha.finite
    obtain ⟨y, rfl⟩ := hb.finite
    simp [Number.less, Number.order?] at h
  · cases h
  · cases h
    rfl

/-- What goes wrong in a binary operator is the script's fault. -/
theorem BinaryOp.apply_fault {ctx : Context} {host : Host} {op : BinaryOp}
    (known : op ∈ BinaryOp.all) {a b : Value} (ha : a.Allowed handles) (hb : b.Allowed handles)
    {error : Error} (h : op.apply ctx host a b = .error error) : error.isScript = true := by
  obtain ⟨truthA, htruthA⟩ := ha.isTruthy
  obtain ⟨truthB, htruthB⟩ := hb.isTruthy
  have compared : ∀ {result : Except Error Bool} {f : Bool → Bool},
      (do let truth ← result; Except.ok (Value.boolean (f truth))) = .error error →
      result = .error error := by
    intro result f h
    cases result with
    | ok truth => cases h
    | error error =>
      cases h
      rfl
  cases op with
  | and | or =>
    unfold apply at h
    rw [htruthA, htruthB] at h
    cases truthA <;> cases truthB <;> cases h
  | equal | unequal =>
    obtain ⟨truth, htruth⟩ := ha.exists_equal hb host
    unfold apply at h
    rw [htruth] at h
    cases h
  | less => exact ha.less_fault hb (compared (f := id) h)
  | greater => exact hb.less_fault ha (compared (f := id) h)
  | other symbol => simp [BinaryOp.all] at known
  | add | subtract | multiply | divide =>
    unfold apply at h
    simp only at h
    split at h
    · obtain ⟨x, rfl⟩ := ha.finite
      obtain ⟨y, rfl⟩ := hb.finite
      exact arithmetic_fault (by simp) h
    · cases h
      rfl

end Operators

/-! ## Properties

Reading and writing properties has errors of its own, none of which a sentinel causes. -/

/-- Whether no error of a computation says that a sentinel was used. -/
def Harmless {α : Type} (result : Except Error α) : Prop :=
  ∀ error, result = .error error → error.isInternal = false

section Properties

variable {α β : Type}

theorem harmless_error {error : Error} (h : error.isInternal = false) :
    Harmless (.error error : Except Error α) := by
  intro other same
  cases same
  exact h

theorem Harmless.bind {x : Except Error α} {f : α → Except Error β} (hx : Harmless x)
    (hf : ∀ a, Harmless (f a)) : Harmless (x >>= f) := by
  cases x with
  | ok a => exact hf a
  | error error => exact harmless_error (hx error rfl)

end Properties

end ScopeScript
