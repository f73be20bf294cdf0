import ScopeScript.Proofs.Eval.TwinRun
set_option autoImplicit false

/-!
# Eval: what a run can come to

From the scope that it starts in, a run comes to the scopes around it, to the scopes of the
functions that are bound in any of those, and so on.  It changes no scope that it cannot come to,
and what such scopes hold makes no difference to it: among other scopes of that kind, it does the
same, but for the numbers of the scopes that it makes itself.

Reachability is about the state in which the run starts.  The scopes that are reachable then and
those made since are a territory that nothing leads out of, so they stay all that the run comes to.
-/

namespace ScopeScript

/-- No literal of the tree is a function; booleans, numbers and strings are none. -/
def Node.WithoutFunctions (node : Node) : Prop := node.EveryLiteral fun value => value.home? = none

theorem Node.WithoutFunctions.gives {node : Node} (h : node.WithoutFunctions) (T : Territory) :
    T.GivesTree node := by
  intro value hvalue home hhome
  rw [h value hvalue] at hhome
  cases hhome

/-! ## Reachable scopes -/

namespace Scopes

/-- A scope that can be come to from the scope `env`. -/
inductive Reachable (scopes : Scopes) (env : ScopeId) : ScopeId → Prop
  | self : Reachable scopes env env
  /-- a scope around one that can be come to -/
  | around {id other : ScopeId} (h : Reachable scopes env id)
    (hother : other ∈ (scopes.get id).outer) : Reachable scopes env other
  /-- the scope of a function that is bound in one that can be come to -/
  | captured {id home : ScopeId} {entry : Datum × Binding} (h : Reachable scopes env id)
    (hentry : entry ∈ (scopes.get id).bindings) (hhome : entry.2.value.home? = some home) :
    Reachable scopes env home

/-- No literal of a function that can be come to is a function. -/
def ReachableBodies (scopes : Scopes) (env : ScopeId) : Prop :=
  ∀ id, scopes.Reachable env id →
    ∀ entry ∈ (scopes.get id).functions, entry.2.body.WithoutFunctions

/-- What a run from the scope `env` comes to: the scopes that are reachable, and those it makes. -/
def reach (scopes : Scopes) (env : ScopeId) : Territory where
  given := scopes.Reachable env
  since := scopes.cells.size
  isOpen _ := True

/-- Both have the scopes that are reachable, and these hold the same. -/
def AgreeFrom (env : ScopeId) (scopes scopes' : Scopes) : Prop :=
  ∀ id, scopes.Reachable env id →
    id < scopes.cells.size ∧ id < scopes'.cells.size ∧ scopes'.get id = scopes.get id

/-- The number of a scope among other scopes: scopes that are new get the next numbers there. -/
def shift (scopes scopes' : Scopes) (id : ScopeId) : ScopeId :=
  if id < scopes.cells.size then id else scopes'.cells.size + (id - scopes.cells.size)

variable {scopes scopes' : Scopes} {env : ScopeId}

theorem shift_old {id : ScopeId} (old : id < scopes.cells.size) : scopes.shift scopes' id = id :=
  if_pos old

theorem shift_new {id : ScopeId} (new : scopes.cells.size ≤ id) :
    scopes.shift scopes' id = scopes'.cells.size + (id - scopes.cells.size) :=
  if_neg (Nat.not_lt_of_le new)

/-- In the beginning, the territory is what is reachable. -/
theorem holds_reach {id : ScopeId} :
    (scopes.reach env).Holds scopes id ↔ scopes.Reachable env id :=
  or_iff_left fun made => Nat.not_lt_of_le made.1 made.2

theorem settled_reach (bodies : scopes.ReachableBodies env) :
    (scopes.reach env).Settled scopes := by
  refine ⟨Nat.le_refl _, fun _ _ => trivial, ?_, ?_, ?_⟩
  · intro id here other hother
    exact .inl (.around (holds_reach.mp here) hother)
  · intro id here entry hentry home hhome
    exact .inl (.captured (holds_reach.mp here) hentry hhome)
  · intro id here entry hentry
    exact (bodies id (holds_reach.mp here) entry hentry).gives _

/-- Scopes that agree on what is reachable are twins there; only new scopes have other numbers. -/
theorem AgreeFrom.twin (agree : AgreeFrom env scopes scopes')
    (bodies : scopes.ReachableBodies env) :
    scopes.Twin (scopes.shift scopes') (scopes.reach env) scopes' := by
  have settled := settled_reach bodies
  have fixed : ∀ id, scopes.Reachable env id → scopes.shift scopes' id = id := fun id here =>
    shift_old (agree id here).1
  -- New scopes lie behind all scopes that are there, among the one scopes as among the others.
  have apart : ∀ a b, scopes.Reachable env a → scopes.cells.size ≤ b →
      scopes.shift scopes' a ≠ scopes.shift scopes' b := by
    intro a b here new
    rw [fixed a here, shift_new new]
    exact Nat.ne_of_lt (Nat.lt_add_right _ (agree a here).2.1)
  refine ⟨?_, fixed, settled, ?_, ?_, ?_⟩
  · rintro a b (reachableA | newA) (reachableB | newB) same
    · rwa [fixed a reachableA, fixed b reachableB] at same
    · exact absurd same (apart a b reachableA newB)
    · exact absurd same.symm (apart b a reachableB newA)
    · rw [shift_new newA, shift_new newB] at same
      have offset := Nat.add_left_cancel same
      calc a = scopes.cells.size + (a - scopes.cells.size) := (Nat.add_sub_cancel' newA).symm
        _ = scopes.cells.size + (b - scopes.cells.size) := by rw [offset]
        _ = b := Nat.add_sub_cancel' newB
  · intro count
    rw [shift_new (Nat.le_add_right _ _)]
    congr 1
    exact Nat.add_sub_cancel_left _ _
  · intro id here
    have reachable := holds_reach.mp here
    obtain ⟨old, old', -⟩ := agree id reachable
    rw [fixed id reachable]
    exact iff_of_true old old'
  · intro id here
    have reachable := holds_reach.mp here
    rw [fixed id reachable, (agree id reachable).2.2]
    refine (Scope.renumber_eq_self ?_ ?_).symm
    · intro other hother
      exact fixed other (.around reachable hother)
    · intro entry hentry
      cases hvalue : entry.2.value with
      | function home name =>
        rw [Value.renumber, fixed home (.captured reachable hentry (by rw [hvalue]; rfl))]
      | _ => rfl

end Scopes

/-! ## Confined computations -/

namespace Eval

variable {α : Type} {m m' : Machine} {env : ScopeId}

/-- Two outcomes are both results that `R` relates or both the same error, in states that `S`
relates. -/
def Alike (R : α → α → Prop) (S : Machine → Machine → Prop) :
    EStateM.Result Error Machine α → EStateM.Result Error Machine α → Prop
  | .ok a m₁, .ok a' m₁' => R a a' ∧ S m₁ m₁'
  | .error error m₁, .error error' m₁' => error' = error ∧ S m₁ m₁'
  | _, _ => False

theorem Alike.mono {R R' : α → α → Prop} {S S' : Machine → Machine → Prop}
    {r r' : EStateM.Result Error Machine α} (h : Alike R S r r')
    (result : ∀ a a', R a a' → R' a a') (state : ∀ m₁ m₁', S m₁ m₁' → S' m₁ m₁') :
    Alike R' S' r r' := by
  cases r with
  | ok a m₁ =>
    cases r' with
    | ok a' m₁' => exact ⟨result a a' h.1, state m₁ m₁' h.2⟩
    | error _ _ => exact h.elim
  | error error m₁ =>
    cases r' with
    | ok _ _ => exact h.elim
    | error error' m₁' => exact ⟨h.1, state m₁ m₁' h.2⟩

variable {settings : Settings} {node : Node}

end Eval

end ScopeScript
