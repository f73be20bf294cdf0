import ScopeScript.Interpreter
import ScopeScript.Proofs.Eval.Outcome
set_option autoImplicit false

/-!
# Eval: what happens during a run

The outcome of a run tells nothing about what it did on the way.  A task is one thing that a run has
to do: evaluate an expression, execute statements, call a function, write a property.  `Starts`
relates a task and the state it is done in to the tasks that are started for it, each with the state
at that moment; there is a rule for every place where the definitions of evaluation and execution
start one.  What happens during a run is what its first task leads to.
-/

namespace ScopeScript

/-- One thing that a run has to do; below it, calls may be nested `depth` deep. -/
inductive Task where
  /-- evaluate an expression -/
  | evaluate (depth : Nat) (scope : ScopeId) (node : Node)
  /-- evaluate the arguments of a call, counted from `index` -/
  | arguments (depth : Nat) (scope : ScopeId) (name : Name) (index : Nat) (nodes : List Node)
  /-- call a function -/
  | call (depth : Nat) (home : ScopeId) (name : Name) (code : Code) (arguments : List Value)
  /-- execute a statement -/
  | execute (depth : Nat) (scope : ScopeId) (node : Node)
  /-- execute a branch of a choice -/
  | branch (depth : Nat) (scope : ScopeId) (node : Node)
  /-- execute the body of a function -/
  | body (depth : Nat) (scope : ScopeId) (node : Node)
  /-- execute statements -/
  | all (depth : Nat) (scope : ScopeId) (nodes : List Node)
  /-- write the property at the end of a path -/
  | write (scope : ScopeId) (name property : String) (rest : List String) (value : Value)
  /-- hand a value to the adapter of a host value, for one of its properties -/
  | setProperty (adapter : Adapter) (target : Value) (property : String) (value : Value)

/-- The host value and the property that a path ends at. -/
def Settings.writePoint (settings : Settings) (objects : HostObjects) (owner : String) :
    Value → String → List String → Except Error (Value × String)
  | target, name, [] => .ok (target, name)
  | target, name, next :: rest => do
    let reached ← settings.readProperty objects (.text owner) target (.text name)
    settings.writePoint objects owner reached next rest

/-- Writing along a path is writing at the point where it ends. -/
theorem Settings.writePath_eq (settings : Settings) (objects : HostObjects) (owner path : String)
    (value target : Value) (name : String) (rest : List String) :
    settings.writePath objects owner path value target name rest = (do
      let (reached, property) ← settings.writePoint objects owner target name rest
      settings.writeProperty objects owner path reached property value) := by
  induction rest generalizing target name with
  | nil => rfl
  | cons next rest ih =>
    rw [writePath, writePoint, bind_assoc]
    simp only [ih]

namespace Eval

/-- A name stands for a function of a number of parameters. -/
def Applicable (m : Machine) (scope : ScopeId) (name : Name) (count : Nat) (home : ScopeId)
    (declared : Name) : Prop :=
  m.scopes.lookup scope name = .ok (.function home declared) ∧
    ∃ params, (m.scopes.code home declared).params.items? = some params ∧ count = params.length

/-- The state in which the body of a function is executed, and the scope it is executed in. -/
def enter (settings : Settings) (home : ScopeId) (name : Name) (code : Code)
    (arguments : List Value) : Eval ScopeId := do
  let scope ← newScope home
  declareAll scope (code.parameters.zip arguments)
  emit settings (.called name arguments)
  pure scope

/-- A call enters the function and executes its body. -/
theorem callAt_succ (settings : Settings) (depth : Nat) (home : ScopeId) (name : Name) (code : Code)
    (arguments : List Value) :
    callAt settings (depth + 1) home name code arguments = (do
      let scope ← enter settings home name code arguments
      let completion ← executeBody settings (callAt settings depth) scope code.body
      pure (callValue completion)) := by
  simp only [callAt, enter, bind_assoc, pure_bind]

/-- A `return` with an expression evaluates it and gives its value back. -/
theorem execute_giveBack {node : Node} (h : node ≠ .absent) (settings : Settings) (call : Caller)
    (scope : ScopeId) :
    execute settings call scope (.giveBack node) = (do
      let value ← evaluateValue settings call scope "returned expression" node
      pure (.returned (some value))) := by
  cases node with
  | absent => exact absurd rfl h
  | _ => rfl

/-- One task starts another one for itself. -/
inductive Starts (settings : Settings) : Task → Machine → Task → Machine → Prop
  | operand {d s op node m} :
    Starts settings (.evaluate d s (.unary op node)) m (.evaluate d s node) m
  | left {d s op a b m} :
    Starts settings (.evaluate d s (.binary op a b)) m (.evaluate d s a) m
  | right {d s op a b m v m'}
    (h : evaluateValue settings (callAt settings d) s ("left operand of '" ++ op.spelling ++ "'") a
      m = .ok v m') :
    Starts settings (.evaluate d s (.binary op a b)) m (.evaluate d s b) m'
  | arguments {d s name nodes m home declared}
    (h : Applicable m s name nodes.length home declared) :
    Starts settings (.evaluate d s (.call name nodes)) m (.arguments d s name 1 nodes) m
  | call {d s name nodes m home declared values m'}
    (h : Applicable m s name nodes.length home declared)
    (hargs : evaluateArguments settings (callAt settings d) s name 1 nodes m = .ok values m') :
    Starts settings (.evaluate d s (.call name nodes)) m
      (.call d home declared (m.scopes.code home declared) values) m'
  | callData {d s name arguments m home declared}
    (hnone : arguments.items? = some []) (h : Applicable m s name 0 home declared) :
    Starts settings (.evaluate d s (.data (.record .call [name, arguments]))) m
      (.call d home declared (m.scopes.code home declared) []) m
  | argument {d s name index node rest m} :
    Starts settings (.arguments d s name index (node :: rest)) m (.evaluate d s node) m
  | moreArguments {d s name index node rest m v m'}
    (h : evaluateValue settings (callAt settings d) s
      ("argument " ++ toString index ++ " of '" ++ name.asText ++ "'") node m = .ok v m') :
    Starts settings (.arguments d s name index (node :: rest)) m
      (.arguments d s name (index + 1) rest) m'
  | enter {d home name code values m s m'}
    (h : enter settings home name code values m = .ok s m') :
    Starts settings (.call (d + 1) home name code values) m (.body d s code.body) m'
  | body {d s nodes m} :
    Starts settings (.body d s (.block nodes)) m (.all d s nodes) m
  | statements {d s nodes m} :
    Starts settings (.execute d s (.block nodes)) m (.all d s nodes) m
  | first {d s node rest m} :
    Starts settings (.all d s (node :: rest)) m (.execute d s node) m
  | next {d s node rest m m'}
    (h : execute settings (callAt settings d) s node m = .ok .normal m') :
    Starts settings (.all d s (node :: rest)) m (.all d s rest) m'
  | initial {d s isConst name node m} :
    Starts settings (.execute d s (.declaration isConst name node)) m (.evaluate d s node) m
  | assigned {d s name properties word words node m}
    (h : Node.route? name properties = some (word, words)) :
    Starts settings (.execute d s (.assignment (.identifier name properties) node)) m
      (.evaluate d s node) m
  | write {d s name properties word property rest node m v m'}
    (h : Node.route? name properties = some (word, property :: rest))
    (hvalue : evaluateValue settings (callAt settings d) s
      ("value assigned to '" ++ Node.path word (property :: rest) ++ "'") node m = .ok v m') :
    Starts settings (.execute d s (.assignment (.identifier name properties) node)) m
      (.write s word property rest v) m'
  | setProperty {s word property rest v m target reached last}
    (h : handleTarget s (.text word) m = .ok target m)
    (hpoint : settings.writePoint m.objects word target property rest = .ok (reached, last)) :
    Starts settings (.write s word property rest v) m
      (.setProperty (settings.registry.adapterFor settings.classes reached) reached last v) m
  | returned {d s node m} (h : node ≠ .absent) :
    Starts settings (.execute d s (.giveBack node)) m (.evaluate d s node) m
  | called {d s node m} :
    Starts settings (.execute d s (.callStatement node)) m (.evaluate d s node) m
  | condition {d s node thenBlock elseBlock m} :
    Starts settings (.execute d s (.choice node thenBlock elseBlock)) m (.evaluate d s node) m
  | chosen {d s node thenBlock elseBlock m v m' truth m''}
    (hvalue : evaluateValue settings (callAt settings d) s "'if' condition" node m = .ok v m')
    (htruth : v.isTruthy = .ok truth) (hemit : emit settings (.decided truth) m' = .ok () m'') :
    Starts settings (.execute d s (.choice node thenBlock elseBlock)) m
      (.branch d s (if truth then thenBlock else elseBlock)) m''
  | inner {d s nodes m s' m'} (h : newScope s m = .ok s' m') :
    Starts settings (.branch d s (.block nodes)) m (.all d s' nodes) m'

/-- What a task leads to, directly or not. -/
inductive Reaches (settings : Settings) : Task → Machine → Task → Machine → Prop
  | refl {task m} : Reaches settings task m task m
  | step {task m task' m' task'' m''} (h : Reaches settings task m task' m')
    (start : Starts settings task' m' task'' m'') : Reaches settings task m task'' m''

/-- What the first thing that a task starts leads to, the task leads to. -/
theorem Reaches.head {settings : Settings} {task task' task'' : Task} {m m' m'' : Machine}
    (start : Starts settings task m task' m') (h : Reaches settings task' m' task'' m'') :
    Reaches settings task m task'' m'' := by
  induction h with
  | refl => exact .step .refl start
  | step _ next ih => exact .step ih next

/-- What holds of a task and of all that is started for it holds of all that it leads to. -/
theorem Reaches.invariant {settings : Settings} {P : Task → Machine → Prop}
    (keeps : ∀ {task m task' m'}, P task m → Starts settings task m task' m' → P task' m')
    {task task' : Task} {m m' : Machine} (h : Reaches settings task m task' m') (first : P task m) :
    P task' m' := by
  induction h with
  | refl => exact first
  | step _ start ih => exact keeps ih start

/-- A run comes through a state, or leaves it behind. -/
def Passes (settings : Settings) (scope : ScopeId) (tree : Node) (start m : Machine) : Prop :=
  m = (run settings scope tree).leaves start ∨
    ∃ task, Reaches settings (.execute mostNestedCalls scope tree) start task m

end Eval

end ScopeScript
