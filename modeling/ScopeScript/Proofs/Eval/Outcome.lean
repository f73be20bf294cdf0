import ScopeScript.Eval.Run
set_option autoImplicit false

/-!
# Eval: outcomes of computations

A computation on the state of a run ends with a result or an error, and in a state either way.
`Ensures x m Q E` says of the outcome of `x` from the state `m` that `Q` holds of a result and `E`
of an error, each with the state it leaves.  Sequences are taken apart with `Ensures.bind`; what the
single operations do to a state is said once, by an equation for each, or by `Quiet` for those that
do nothing but log.
-/

namespace ScopeScript

namespace Machine

/-- Two states differ in their logs at most. -/
structure Logs (m m' : Machine) : Prop where
  scopes : m'.scopes = m.scopes
  objects : m'.objects = m.objects
  handles : m'.handles = m.handles

theorem Logs.refl (m : Machine) : m.Logs m := ⟨rfl, rfl, rfl⟩

theorem Logs.trans {m m₁ m₂ : Machine} (h : m.Logs m₁) (h' : m₁.Logs m₂) : m.Logs m₂ :=
  ⟨h'.scopes.trans h.scopes, h'.objects.trans h.objects, h'.handles.trans h.handles⟩

end Machine

namespace Eval

variable {α β : Type}

/-- The state that a computation leaves, with a result or with an error. -/
def leaves (x : Eval α) (m : Machine) : Machine :=
  match x m with
  | .ok _ m' => m'
  | .error _ m' => m'

/-- The error that a computation ends in, if it does. -/
def failure? (x : Eval α) (m : Machine) : Option Error :=
  match x m with
  | .ok _ _ => none
  | .error error _ => some error

/-! ## Equations -/

theorem leaves_of_ok {x : Eval α} {m m' : Machine} {a : α} (h : x m = .ok a m') :
    x.leaves m = m' := by
  rw [leaves, h]

theorem leaves_of_error {x : Eval α} {m m' : Machine} {error : Error} (h : x m = .error error m') :
    x.leaves m = m' := by
  rw [leaves, h]

@[simp] theorem pure_apply (a : α) (m : Machine) : (pure a : Eval α) m = .ok a m := rfl

theorem bind_apply (x : Eval α) (f : α → Eval β) (m : Machine) :
    (x >>= f) m =
      match x m with
      | .ok a m' => f a m'
      | .error error m' => .error error m' := by
  change EStateM.bind x f m = _
  unfold EStateM.bind
  cases x m <;> rfl

theorem bind_of_ok {x : Eval α} {m m' : Machine} {a : α} (h : x m = .ok a m') (f : α → Eval β) :
    (x >>= f) m = f a m' := by
  rw [bind_apply, h]

theorem bind_of_error {x : Eval α} {m m' : Machine} {error : Error} (h : x m = .error error m')
    (f : α → Eval β) : (x >>= f) m = .error error m' := by
  rw [bind_apply, h]

theorem bind_eq_ok {x : Eval α} {f : α → Eval β} {m m' : Machine} {b : β} :
    (x >>= f) m = .ok b m' ↔ ∃ a m₁, x m = .ok a m₁ ∧ f a m₁ = .ok b m' := by
  rw [bind_apply]
  cases x m with
  | ok a m₁ =>
    constructor
    · intro h
      exact ⟨a, m₁, rfl, h⟩
    · rintro ⟨a', m₁', hx, h⟩
      cases hx
      exact h
  | error error m₁ => simp

theorem leaves_bind_of_ok {x : Eval α} {m m' : Machine} {a : α} (h : x m = .ok a m')
    (f : α → Eval β) : (x >>= f).leaves m = (f a).leaves m' := by
  rw [leaves, bind_of_ok h]
  rfl

theorem leaves_bind_of_error {x : Eval α} {m m' : Machine} {error : Error}
    (h : x m = .error error m') (f : α → Eval β) : (x >>= f).leaves m = m' :=
  leaves_of_error (bind_of_error h f)

/-- What both parts of a sequence do to states, whatever they start from and however they end, the
sequence does as well. -/
theorem leaves_bind_of_trans {R : Machine → Machine → Prop} {x : Eval α} {f : α → Eval β}
    (trans : ∀ {m m₁ m₂}, R m m₁ → R m₁ m₂ → R m m₂) (hx : ∀ m, R m (x.leaves m))
    (hf : ∀ a m, R m ((f a).leaves m)) (m : Machine) : R m ((x >>= f).leaves m) := by
  have first := hx m
  cases h : x m with
  | ok a m₁ =>
    rw [leaves_of_ok h] at first
    rw [leaves_bind_of_ok h]
    exact trans first (hf a m₁)
  | error error m₁ =>
    rw [leaves_of_error h] at first
    rw [leaves_bind_of_error h]
    exact first

@[simp] theorem get_bind_apply (f : Machine → Eval α) (m : Machine) : (get >>= f) m = f m m := rfl

theorem lookup_apply (scope : ScopeId) (name : Name) (m : Machine) :
    lookup scope name m =
      match m.scopes.lookup scope name with
      | .ok value => .ok value m
      | .error error => .error error m := by
  rw [lookup, get_bind_apply]
  cases m.scopes.lookup scope name <;> rfl

theorem updateScopes_apply (problem? : Scopes → Option Error) (change : Scopes → Scopes)
    (m : Machine) :
    updateScopes problem? change m =
      match problem? m.scopes with
      | some error => .error error m
      | none => .ok () { m with scopes := change m.scopes } := by
  rw [updateScopes, get_bind_apply]
  cases problem? m.scopes <;> rfl

theorem newScope_apply (scope : ScopeId) (m : Machine) :
    newScope scope m =
      .ok m.scopes.cells.size { m with scopes := (m.scopes.add (m.scopes.chain scope)).2 } := rfl

/-- Logging changes nothing but the log, and never fails. -/
theorem emit_apply (settings : Settings) (event : Event) (m : Machine) :
    ∃ log, emit settings event m = .ok () { m with log := log } := by
  unfold emit
  split
  · exact ⟨_, rfl⟩
  · exact ⟨m.log, rfl⟩

/-! ## What is ensured -/

/-- The outcome of `x` from the state `m` satisfies `Q` if it is a result and `E` if it is an
error. -/
def Ensures (x : Eval α) (m : Machine) (Q : α → Machine → Prop) (E : Error → Machine → Prop) :
    Prop :=
  match x m with
  | .ok a m' => Q a m'
  | .error error m' => E error m'

theorem ensures_iff {x : Eval α} {m : Machine} {Q : α → Machine → Prop}
    {E : Error → Machine → Prop} :
    Ensures x m Q E ↔
      (∀ a m', x m = .ok a m' → Q a m') ∧ ∀ error m', x m = .error error m' → E error m' := by
  unfold Ensures
  cases x m with
  | ok a m' => simp
  | error error m' => simp

theorem Ensures.ok {x : Eval α} {m m' : Machine} {a : α} {Q : α → Machine → Prop}
    {E : Error → Machine → Prop} (h : Ensures x m Q E) (hx : x m = .ok a m') : Q a m' :=
  (ensures_iff.mp h).1 a m' hx

theorem Ensures.error {x : Eval α} {m m' : Machine} {error : Error} {Q : α → Machine → Prop}
    {E : Error → Machine → Prop} (h : Ensures x m Q E) (hx : x m = .error error m') : E error m' :=
  (ensures_iff.mp h).2 error m' hx

theorem Ensures.bind {x : Eval α} {f : α → Eval β} {m : Machine} {Q : α → Machine → Prop}
    {R : β → Machine → Prop} {E : Error → Machine → Prop} (hx : Ensures x m Q E)
    (hf : ∀ a m', Q a m' → Ensures (f a) m' R E) : Ensures (x >>= f) m R E := by
  unfold Ensures at hx ⊢
  rw [bind_apply]
  cases h : x m with
  | ok a m' =>
    rw [h] at hx
    exact hf a m' hx
  | error error m' =>
    rw [h] at hx
    exact hx

theorem Ensures.mono {x : Eval α} {m : Machine} {Q Q' : α → Machine → Prop}
    {E E' : Error → Machine → Prop} (h : Ensures x m Q E) (hQ : ∀ a m', Q a m' → Q' a m')
    (hE : ∀ error m', E error m' → E' error m') : Ensures x m Q' E' := by
  rw [ensures_iff] at h ⊢
  exact ⟨fun a m' hx => hQ a m' (h.1 a m' hx), fun error m' hx => hE error m' (h.2 error m' hx)⟩

/-! ## What does nothing but log -/

/-- A computation that changes nothing but the log, whether it succeeds or fails. -/
def Quiet (x : Eval α) : Prop :=
  ∀ m : Machine, Ensures x m (fun _ m' => m.Logs m') fun _ m' => m.Logs m'

theorem quiet_iff {x : Eval α} : Quiet x ↔ ∀ m : Machine, m.Logs (x.leaves m) := by
  refine forall_congr' fun m => ?_
  rw [Ensures, leaves]
  cases x m <;> rfl

theorem Quiet.leaves {x : Eval α} (quiet : Quiet x) (m : Machine) : m.Logs (x.leaves m) :=
  quiet_iff.mp quiet m

theorem Quiet.logs {x : Eval α} {m m' : Machine} (quiet : Quiet x) {a : α} (h : x m = .ok a m') :
    m.Logs m' := (quiet m).ok h

theorem Quiet.bind {x : Eval α} {f : α → Eval β} (hx : Quiet x) (hf : ∀ a, Quiet (f a)) :
    Quiet (x >>= f) :=
  quiet_iff.mpr (leaves_bind_of_trans .trans hx.leaves fun a => (hf a).leaves)

theorem quiet_pure (a : α) : Quiet (pure a : Eval α) := fun m => .refl m

theorem quiet_throw (error : Error) : Quiet (throw error : Eval α) := fun m => .refl m

theorem quiet_ofExcept (result : Except Error α) : Quiet (ofExcept result) := by
  cases result with
  | ok a => exact quiet_pure a
  | error error => exact quiet_throw error

theorem Quiet.get {f : Machine → Eval α} (h : ∀ m, Quiet (f m)) : Quiet (get >>= f) :=
  fun m => h m m

theorem quiet_demand (description : String) (value : Value) :
    Quiet (demand description value) := by
  unfold demand
  split
  · exact quiet_throw _
  · exact quiet_pure _

theorem quiet_lookup (scope : ScopeId) (name : Name) : Quiet (lookup scope name) := by
  refine .get fun m => ?_
  cases m.scopes.lookup scope name with
  | ok value => exact quiet_pure value
  | error error => exact quiet_throw error

theorem quiet_emit (settings : Settings) (event : Event) : Quiet (emit settings event) := by
  intro m
  obtain ⟨log, logged⟩ := emit_apply settings event m
  rw [Ensures, logged]
  exact ⟨rfl, rfl, rfl⟩

theorem quiet_emit? (settings : Settings) (level : Nat) (event? : Option Event) :
    Quiet (emit? settings level event?) := by
  cases event? with
  | some event => exact quiet_emit settings event
  | none =>
    rw [emit?]
    split
    · exact quiet_throw _
    · exact quiet_pure _

end Eval

end ScopeScript
