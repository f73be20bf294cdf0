import ScopeScript.Proofs.Eval.ClosedRun
import ScopeScript.Proofs.Grammar.EarliestError
set_option autoImplicit false

/-!
# Eval: what hosts and scripts get to see

A host asks an interpreter to run trees and to evaluate expressions, one request after the other and
all on one state.  Whatever the requests were and however they ended, what is bound, passed to a
function, written to a property or given back is a value that scripts compute with, and handles are
those that the host bound itself.
-/

namespace ScopeScript

variable {handles : Value → Prop} {settings : Settings} {m m' : Machine}

/-- Some scope binds the value to some name. -/
def Machine.Binds (m : Machine) (value : Value) : Prop :=
  ∃ id, ∃ entry ∈ (m.scopes.get id).bindings, entry.2.value = value

theorem Scopes.Closed.allowed (closed : m.scopes.Closed handles) (value : Value)
    (binds : m.Binds value) : value.Allowed handles := by
  obtain ⟨id, entry, hentry, rfl⟩ := binds
  exact closed.bindings id entry hentry

/-! ## Requests -/

/-- What a host asks of an interpreter. -/
inductive HostRequest where
  /-- run a tree -/
  | run (scope : ScopeId) (tree : Node)
  /-- evaluate a tree, the value of which may be a sentinel -/
  | evaluate (scope : ScopeId) (tree : Node)
  /-- parse and run a script -/
  | runSource (scope : ScopeId) (source : String)
  /-- parse and evaluate an expression -/
  | evaluateSource (scope : ScopeId) (source : String)

namespace HostRequest

/-- Does what is asked for. -/
def perform (settings : Settings) : HostRequest → Eval (Option Value)
  | .run scope tree => Eval.run settings scope tree
  | .evaluate scope tree => do
    let value ← Eval.evaluate settings settings.caller scope tree
    pure (some value)
  | .runSource scope source => Eval.runSource settings scope source
  | .evaluateSource scope source => do
    let value ← Eval.evaluateSource settings scope source
    pure (some value)

/-- The state after a request, whether it succeeded or failed. -/
def after (settings : Settings) (m : Machine) (request : HostRequest) : Machine :=
  match request.perform settings m with
  | .ok _ m' => m'
  | .error _ m' => m'

/-- Whether the literals of a tree that the host hands in are plain. -/
def isPlain : HostRequest → Bool
  | .run _ tree | .evaluate _ tree => tree.isPlain
  | .runSource _ _ | .evaluateSource _ _ => true

/-- What a request has to do, once its source is parsed. -/
def task? : HostRequest → Option Task
  | .run scope tree => some (.execute mostNestedCalls scope tree)
  | .evaluate scope tree => some (.evaluate mostNestedCalls scope tree)
  | .runSource scope source =>
    (parseProgram source).toOption.map (.execute mostNestedCalls scope)
  | .evaluateSource scope source =>
    (parseExpression source).toOption.map (.evaluate mostNestedCalls scope)

/-- What happens while a request is met in the state `m`. -/
def Reaches (settings : Settings) (m : Machine) (request : HostRequest) (task : Task)
    (m' : Machine) : Prop :=
  ∃ first, request.task? = some first ∧ Eval.Reaches settings first m task m'

end HostRequest

/-- A parse fails with a lexical error or an error of grammar. -/
theorem StopsEarliest.harmless {parse : String → Except Error Node} {source : String}
    (stops : StopsEarliest parse source) : Harmless (parse source) := by
  intro error failed
  cases htokens : tokenize source with
  | ok tokens =>
    obtain ⟨problem, before, found, rfl, -⟩ := stops.grammar tokens error htokens failed
    rfl
  | error lexical =>
    rcases stops.lexical lexical htokens with h | ⟨problem, found, h, -⟩ <;>
    · obtain rfl := Except.error.inj (failed.symm.trans h)
      rfl

namespace Eval

end Eval

namespace HostRequest

end HostRequest

/-- An interpreter with a handle on a dictionary, and a function that gives nothing back. -/
def boxMachine : Machine where
  scopes := ⟨#[{
    bindings :=
      [(.text "box", ⟨.text "box", .handle (.object 0 .dict) 1, false⟩),
       (.text "f", ⟨.text "f", .function 0 (.text "f"), true⟩)]
    functions := [(.text "f", ⟨.tuple [], .block [.giveBack .absent]⟩)] }]⟩
  objects := #[{ cls := .dict }]
  handles := 1

end ScopeScript
