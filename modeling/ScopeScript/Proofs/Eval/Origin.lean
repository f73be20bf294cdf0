import ScopeScript.Proofs.Eval.Failures
set_option autoImplicit false

/-!
# Eval: where errors arise

An error ends everything that led to it, so the error of a run says what went wrong and not where.
It arises in one task, which fails while nothing that it starts does.  Every error of a task is that
of such a task among all that it leads to.

The search for it comes to an end because what a task starts is smaller: calls may be nested less
deep, or less of a tree is left.
-/

namespace ScopeScript

open Eval

/-! ## Smaller tasks -/

namespace Task

/-- How deep calls may be nested below a task. -/
def depth : Task → Nat
  | .evaluate depth _ _ | .arguments depth _ _ _ _ | .call depth _ _ _ _ | .execute depth _ _
  | .branch depth _ _ | .body depth _ _ | .all depth _ _ => depth
  | .write _ _ _ _ _ | .setProperty _ _ _ _ => 0

/-- How much of a tree there is left for a task, the bodies of functions that it calls apart. -/
noncomputable def size : Task → Nat
  | .evaluate _ _ node | .execute _ _ node | .branch _ _ node | .body _ _ node => sizeOf node
  | .arguments _ _ _ _ nodes | .all _ _ nodes => sizeOf nodes
  | .write _ _ _ _ _ => 1
  | .call _ _ _ _ _ | .setProperty _ _ _ _ => 0

end Task

/-- What a task starts is smaller, and calls are not nested deeper there. -/
theorem Eval.Starts.smaller {settings : Settings} {task task' : Task} {m m' : Machine}
    (start : Starts settings task m task' m') :
    task'.depth < task.depth ∨ task'.depth = task.depth ∧ task'.size < task.size := by
  cases start with
  | write route h =>
    simp only [Task.depth, Task.size, Node.assignment.sizeOf_spec, Node.identifier.sizeOf_spec]
    omega
  | @chosen d s node thenBlock elseBlock m v m' truth m'' hvalue htruth hemit =>
    have branch :
        sizeOf (if truth then thenBlock else elseBlock) ≤ sizeOf thenBlock + sizeOf elseBlock := by
      cases truth <;> simp
    simp only [Task.depth, Task.size, Node.choice.sizeOf_spec, true_and]
    omega
  | _ =>
    simp only [Task.depth, Task.size, Node.unary.sizeOf_spec, Node.binary.sizeOf_spec,
      Node.call.sizeOf_spec, Node.data.sizeOf_spec, Node.block.sizeOf_spec,
      Node.declaration.sizeOf_spec, Node.assignment.sizeOf_spec, Node.giveBack.sizeOf_spec,
      Node.callStatement.sizeOf_spec, Node.choice.sizeOf_spec, List.cons.sizeOf_spec,
      true_and]
    omega

/-! ## Origins -/

/-- A task fails, and nothing that it starts does. -/
structure Task.Raises (settings : Settings) (task : Task) (m : Machine) (error : Error) : Prop where
  fails : task.failure? settings m = some error
  started : ∀ {task' : Task} {m' : Machine}, Starts settings task m task' m' →
    task'.failure? settings m' = none

/-- Every error of a task arises in a task that it leads to. -/
theorem Task.exists_raises {settings : Settings} {task : Task} {m : Machine} {error : Error}
    (h : task.failure? settings m = some error) :
    ∃ origin m', Reaches settings task m origin m' ∧ origin.Raises settings m' error := by
  by_cases deeper : ∃ task' m', Starts settings task m task' m' ∧ task'.failure? settings m' ≠ none
  · obtain ⟨task', m', start, failing⟩ := deeper
    obtain ⟨other, hother⟩ := Option.ne_none_iff_exists'.mp failing
    obtain rfl : other = error := Option.some.inj ((start.fails hother).symm.trans h)
    obtain ⟨origin, m'', reached, raises⟩ := exists_raises hother
    exact ⟨origin, m'', .head start reached, raises⟩
  · refine ⟨task, m, .refl, h, fun {task' m'} start => ?_⟩
    by_contra failing
    exact deeper ⟨task', m', start, failing⟩
termination_by (task.depth, task.size)
decreasing_by
  rcases start.smaller with shallower | ⟨same, smaller⟩
  · exact .left _ _ shallower
  · rw [same]
    exact .right _ smaller

/-- A task ends in an error if and only if it leads to a task in which the error arises. -/
theorem Task.failure?_eq_some_iff_raises {settings : Settings} {task : Task} {m : Machine}
    {error : Error} : task.failure? settings m = some error ↔
    ∃ origin m', Reaches settings task m origin m' ∧ origin.Raises settings m' error := by
  constructor
  · exact Task.exists_raises
  · rintro ⟨origin, m', reached, raises⟩
    exact reached.fails raises.fails

namespace Task.Raises

variable {α : Type} {settings : Settings} {task task' : Task} {m m' : Machine} {error : Error}

/-- Nothing fails that is started by a task in which an error arises. -/
theorem elim (raises : task.Raises settings m error) (start : Starts settings task m task' m')
    {other : Error} (h : task'.failure? settings m' = some other) {P : Prop} : P := by
  rw [raises.started start] at h
  cases h

/-- Where an error arises behind the value of an expression, the expression does not fail: it has no
value at all, or what is done with its value fails. -/
theorem afterValue (raises : task.Raises settings m error) {depth : Nat} {s : ScopeId} {node : Node}
    (start : Starts settings task m (.evaluate depth s node) m') {description : String}
    {f : Value → Eval α}
    (h : (evaluateValue settings (callAt settings depth) s description node >>= f).failure? m' =
      some error) :
    error = .noValue description ∨
      ∃ value m'', evaluateValue settings (callAt settings depth) s description node m' =
        .ok value m'' ∧ (f value).failure? m'' = some error := by
  rcases failure?_bind_eq_some_iff.mp h with h | behind
  · rcases failure?_bind_eq_some_iff.mp h with h | ⟨value, m'', -, h⟩
    · exact raises.elim start h
    · unfold demand at h
      split at h
      · cases h
        exact .inl rfl
      · cases h
  · exact .inr behind

end Task.Raises

/-! ## Faults of scripts -/

namespace Eval

variable {α β : Type} {m : Machine}

/-- However a computation fails, the error is a fault of the script. -/
def FaultsOnly (x : Eval α) : Prop :=
  ∀ (m : Machine) (error : Error), x.failure? m = some error → error.isScript = true

theorem FaultsOnly.bind {x : Eval α} {f : α → Eval β} (hx : FaultsOnly x)
    (hf : ∀ a, FaultsOnly (f a)) : FaultsOnly (x >>= f) := by
  intro m error h
  rcases failure?_bind_eq_some_iff.mp h with h | ⟨a, m', -, h⟩
  · exact hx m error h
  · exact hf a m' error h

theorem faultsOnly_pure (a : α) : FaultsOnly (pure a : Eval α) := fun _ _ h => by cases h

theorem faultsOnly_lookup (scope : ScopeId) (name : Name) : FaultsOnly (lookup scope name) := by
  intro m error h
  rw [failure?, lookup_apply] at h
  cases found : m.scopes.lookup scope name with
  | ok value =>
    rw [found] at h
    cases h
  | error other =>
    rw [found] at h
    cases h
    rw [Scopes.lookup_error found]
    rfl

theorem faultsOnly_updateScopes {problem? : Scopes → Option Error} {change : Scopes → Scopes}
    (h : ∀ scopes error, problem? scopes = some error → error.isScript = true) :
    FaultsOnly (updateScopes problem? change) := by
  intro m error failed
  rw [failure?, updateScopes_apply] at failed
  cases problem : problem? m.scopes with
  | none =>
    rw [problem] at failed
    cases failed
  | some other =>
    rw [problem] at failed
    cases failed
    exact h m.scopes _ problem

theorem declareProblem?_isScript {scopes : Scopes} {scope : ScopeId} {name : Name} {error : Error}
    (h : scopes.declareProblem? scope name = some error) : error.isScript = true := by
  unfold Scopes.declareProblem? at h
  split at h <;> cases h
  rfl

theorem faultsOnly_declare (scope : ScopeId) (name : Name) (value : Value) (isConst : Bool) :
    FaultsOnly (declare scope name value isConst) :=
  faultsOnly_updateScopes fun _ _ => declareProblem?_isScript

theorem faultsOnly_declareFunction (scope : ScopeId) (name : Name) (code : Code) :
    FaultsOnly (declareFunction scope name code) :=
  faultsOnly_updateScopes fun _ _ => declareProblem?_isScript

theorem faultsOnly_declareAll (scope : ScopeId) (pairs : List (Name × Value)) :
    FaultsOnly (declareAll scope pairs) := by
  induction pairs with
  | nil => exact faultsOnly_pure ()
  | cons pair rest ih => exact (faultsOnly_declare scope pair.1 pair.2 false).bind fun _ => ih

theorem faultsOnly_assign (scope : ScopeId) (name : Name) (value : Value) :
    FaultsOnly (assign scope name value) := by
  refine faultsOnly_updateScopes fun scopes error h => ?_
  unfold Scopes.assignProblem? at h
  split at h
  · split at h <;> cases h
    rfl
  · cases h
    rfl

theorem faultsOnly_emit (settings : Settings) (event : Event) :
    FaultsOnly (emit settings event) := by
  intro m error h
  obtain ⟨log, logged⟩ := emit_apply settings event m
  rw [failure?, logged] at h
  cases h

theorem faultsOnly_newScope (scope : ScopeId) : FaultsOnly (newScope scope) :=
  fun _ _ h => by cases h

theorem faultsOnly_enter (settings : Settings) (home : ScopeId) (name : Name) (code : Code)
    (arguments : List Value) : FaultsOnly (enter settings home name code arguments) :=
  (faultsOnly_newScope home).bind fun scope =>
    (faultsOnly_declareAll scope _).bind fun _ =>
      (faultsOnly_emit settings _).bind fun _ => faultsOnly_pure scope

end Eval

end ScopeScript
