import ScopeScript.Proofs.Eval.Moments
set_option autoImplicit false

/-!
# Eval: declarations stay where they are made

Statements declare names in the scope that they are executed in, and in no other scope that was
there before: the scopes of calls and of branches are new.  So the names that a scope gets are
those of the declarations that stand directly in the statements, in their order, as far as
execution comes.  An expression declares nothing, whatever functions it calls.

A declaration that fails has declared nothing, with one exception: the name of a function is bound
before its line is logged, which fails if the log is to show a parameter that is no word.
-/

namespace ScopeScript

/-! ## The names of a scope -/

namespace Scopes

/-- The names that a scope binds, in the order of their declaration. -/
def names (scopes : Scopes) (id : ScopeId) : List Name :=
  (scopes.get id).bindings.map fun entry => entry.2.name

variable {scopes later : Scopes} {id : ScopeId} {name : Name}

theorem names_bind (value : Value) (isConst : Bool) (exist : id < scopes.cells.size) :
    (scopes.bind id name value isConst).names id = scopes.names id ++ [name] := by
  rw [names, bind, get_modify, if_pos ⟨rfl, exist⟩]
  simp [names]

theorem names_bind_of_ne {other : ScopeId} (value : Value) (isConst : Bool) (differs : other ≠ id) :
    (scopes.bind id name value isConst).names other = scopes.names other := by
  rw [names, bind, get_modify, if_neg fun same => differs same.1]
  rfl

theorem names_functions (other : ScopeId) (more : Entries Name Code) :
    (scopes.modify id fun scope =>
      { scope with functions := scope.functions ++ more }).names other = scopes.names other := by
  rw [names, get_modify]
  split <;> rfl

theorem names_bindFunction (code : Code) (exist : id < scopes.cells.size) :
    (scopes.bindFunction id name code).names id = scopes.names id ++ [name] := by
  rw [bindFunction, names_functions, names_bind _ _ exist]

/-- Another value leaves the names alone. -/
theorem names_store (value : Value) (other : ScopeId) :
    (scopes.store id name value).names other = scopes.names other := by
  unfold store
  split
  · rw [names, get_modify]
    split
    · simp only [Entries.change, names, List.map_map]
      apply List.map_congr_left
      intro entry _
      simp only [Function.comp_apply]
      split <;> rfl
    · rfl
  · rfl

theorem names_add (outer : List ScopeId) : (scopes.add outer).2.names id = scopes.names id := by
  by_cases new : id = scopes.cells.size
  · rw [names, names, new, get_add_new, get_of_size_le (Nat.le_refl _)]
  · rw [names, get_add_old new, names]

/-- Only open scopes get names. -/
theorem Change.names {T : Territory} (change : Change T scopes later) (closed : ¬ T.isOpen id) :
    later.names id = scopes.names id := by
  have differs : ∀ {other : ScopeId}, T.isOpen other → id ≠ other := by
    rintro other isOpen rfl
    exact closed isOpen
  cases change with
  | bind isConst isOpen here holds free => exact names_bind_of_ne _ _ (differs isOpen)
  | bindFunction isOpen here gives free =>
    rw [Scopes.bindFunction, names_functions, names_bind_of_ne _ _ (differs isOpen)]
  | store here holds assignable => exact names_store _ id
  | add here => exact names_add _

theorem Changes.names {T : Territory} (changes : Changes T scopes later) (closed : ¬ T.isOpen id) :
    later.names id = scopes.names id := by
  induction changes with
  | refl => rfl
  | tail _ change ih => rw [change.names closed, ih]

end Scopes

/-! ## Declarations in a tree -/

namespace Node

mutual

/-- The names of the declarations that are the tree itself or stand directly in its statements, in
blocks too but not in functions and branches. -/
def directNames : Node → List Name
  | .declaration _ name _ | .function name _ _ => [name]
  | .block statements => directNamesIn statements
  | _ => []

/-- The names of the declarations that stand directly in statements. -/
def directNamesIn : List Node → List Name
  | [] => []
  | statement :: rest => directNames statement ++ directNamesIn rest

end

end Node

namespace Eval

/-- Whether a statement completes, normally or by returning. -/
def completes (settings : Settings) (call : Caller) (scope : ScopeId) (node : Node) (m : Machine) :
    Bool :=
  match execute settings call scope node m with
  | .ok _ _ => true
  | .error _ _ => false

/-- Whether a statement completes, or is the declaration of a function that fails only after the
function was declared, when its line is logged. -/
def takesEffect (settings : Settings) (call : Caller) (scope : ScopeId) (node : Node)
    (m : Machine) : Bool :=
  match node with
  | .function name params body =>
    match declareFunction scope name ⟨params, body⟩ m with
    | .ok _ _ => true
    | .error _ _ => false
  | _ => completes settings call scope node m

section

variable (settings : Settings) (call : Caller) (scope : ScopeId) (counts : Node → Machine → Bool)

mutual

/-- The names of the declarations directly in a tree that count, as far as execution comes. -/
def declaredNames : Node → Machine → List Name
  | .block statements, m => declaredNamesIn statements m
  | .declaration isConst name initial, m =>
    if counts (.declaration isConst name initial) m then [name] else []
  | .function name params body, m => if counts (.function name params body) m then [name] else []
  | _, _ => []

/-- The names of the declarations directly in statements that count, as far as execution comes. -/
def declaredNamesIn : List Node → Machine → List Name
  | [], _ => []
  | statement :: rest, m =>
    declaredNames statement m ++
      match execute settings call scope statement m with
      | .ok .normal m' => declaredNamesIn rest m'
      | _ => []

end

end

/-! ## Computations that declare nothing -/

variable {α β : Type} {settings : Settings} {m m' : Machine}

/-- Whatever state the computation starts from, the scopes of that state get no names. -/
def KeepsNames (x : Eval α) : Prop := ∀ m : Machine, ∀ id, id < m.scopes.cells.size →
  id < (x.leaves m).scopes.cells.size ∧ (x.leaves m).scopes.names id = m.scopes.names id

theorem KeepsNames.bind {x : Eval α} {f : α → Eval β} (hx : KeepsNames x)
    (hf : ∀ a, KeepsNames (f a)) : KeepsNames (x >>= f) := by
  refine leaves_bind_of_trans (R := fun m m' => ∀ id, id < m.scopes.cells.size →
    id < m'.scopes.cells.size ∧ m'.scopes.names id = m.scopes.names id) ?_ hx hf
  intro m m₁ m₂ first second id exist
  obtain ⟨exist₁, names₁⟩ := first id exist
  obtain ⟨exist₂, names₂⟩ := second id exist₁
  exact ⟨exist₂, names₂.trans names₁⟩

/-- A computation that leaves the scopes alone keeps their names. -/
theorem keepsNames_of_scopes {x : Eval α} (same : ∀ m, (x.leaves m).scopes = m.scopes) :
    KeepsNames x := by
  intro m id exist
  rw [same]
  exact ⟨exist, rfl⟩

/-- All scopes, of which only those that are not there yet may get names. -/
def newOnly (m : Machine) : Territory := .everywhere fun id => m.scopes.cells.size ≤ id

theorem settled_newOnly (m : Machine) : (newOnly m).Settled m.scopes :=
  Territory.settled_everywhere fun _ h => h

theorem keepsNames_of_changes {x : Eval α}
    (changes : ∀ m, Scopes.Changes (newOnly m) m.scopes (x.leaves m).scopes) : KeepsNames x := by
  intro m id exist
  exact ⟨Nat.lt_of_lt_of_le exist (changes m).size_le, (changes m).names (Nat.not_le_of_lt exist)⟩

theorem Quiet.keepsNames {x : Eval α} (quiet : Quiet x) : KeepsNames x :=
  keepsNames_of_scopes fun m => (quiet.leaves m).scopes

section

variable (settings : Settings) (depth : Nat) (scope : ScopeId)

theorem keepsNames_evaluate (node : Node) :
    KeepsNames (evaluate settings (callAt settings depth) scope node) := by
  refine keepsNames_of_changes fun m => ?_
  have within : (Task.evaluate depth scope node).Within (newOnly m) m.scopes :=
    ⟨Territory.holds_everywhere _ _, Territory.givesTree_everywhere _⟩
  exact changes_leaves settings (settled_newOnly m) within

theorem keepsNames_evaluateValue (description : String) (node : Node) :
    KeepsNames (evaluateValue settings (callAt settings depth) scope description node) :=
  (keepsNames_evaluate settings depth scope node).bind fun _ => (quiet_demand _ _).keepsNames

/-- The statements of a branch declare their names in a new scope. -/
theorem keepsNames_executeBranch (node : Node) :
    KeepsNames (executeBranch settings (callAt settings depth) scope node) := by
  refine keepsNames_of_changes fun m => ?_
  have within : (Task.branch depth scope node).Within (newOnly m) m.scopes :=
    ⟨Territory.holds_everywhere _ _, Territory.givesTree_everywhere _⟩
  exact changes_leaves settings (settled_newOnly m) within

theorem keepsNames_executeAssignment (target value : Node) :
    KeepsNames (executeAssignment settings (callAt settings depth) scope target value) := by
  refine keepsNames_of_changes fun m => ?_
  have calls := callerParallel_callAt id (newOnly m) settings depth
  exact (parallel_executeAssignment calls target (Territory.holds_everywhere _ _)
    (Territory.givesTree_everywhere _) (twin_self (settled_newOnly m))).changes

/-- A statement that is no declaration and no block declares nothing. -/
theorem keepsNames_execute {node : Node} (noBlock : ∀ statements, node ≠ .block statements)
    (noDeclaration : ∀ isConst name initial, node ≠ .declaration isConst name initial)
    (noFunction : ∀ name params body, node ≠ .function name params body) :
    KeepsNames (execute settings (callAt settings depth) scope node) := by
  cases node with
  | block statements => exact absurd rfl (noBlock statements)
  | declaration isConst name initial => exact absurd rfl (noDeclaration isConst name initial)
  | function name params body => exact absurd rfl (noFunction name params body)
  | assignment target value =>
    rw [execute]
    exact keepsNames_executeAssignment settings depth scope target value
  | giveBack value =>
    by_cases habsent : value = .absent
    · subst habsent
      exact (quiet_pure _).keepsNames
    · rw [execute_giveBack habsent]
      exact (keepsNames_evaluateValue _ _ _ _ _).bind fun _ => (quiet_pure _).keepsNames
  | callStatement inner =>
    rw [execute]
    exact (keepsNames_evaluate _ _ _ _).bind fun _ => (quiet_pure _).keepsNames
  | choice condition thenBlock elseBlock =>
    rw [execute]
    refine (keepsNames_evaluateValue _ _ _ _ _).bind fun _ => ?_
    refine (quiet_ofExcept _).keepsNames.bind fun truth => ?_
    refine (quiet_emit _ _).keepsNames.bind fun _ => ?_
    split <;> exact keepsNames_executeBranch settings depth scope _
  | data datum =>
    rw [execute]
    refine keepsNames_of_scopes fun m => ?_
    unfold executeData executeNone
    split
    · split <;> rfl
    · rfl
  | _ => exact keepsNames_of_scopes fun _ => rfl

/-! ## What statements declare -/

theorem exists_after_execute {node : Node} (exist : scope < m.scopes.cells.size)
    {completion : Completion}
    (done : execute settings (callAt settings depth) scope node m = .ok completion m') :
    scope < m'.scopes.cells.size := by
  have grows := grows_leaves settings (.execute depth scope node) m
  rw [Task.leaves, leaves_of_ok done] at grows
  exact Nat.lt_of_lt_of_le exist grows.size

/-- A declaration that fails, be it that its expression has no value or that the scope binds its
name already, declares nothing. -/
theorem names_declaration (isConst : Bool) (name : Name) (initial : Node)
    (exist : scope < m.scopes.cells.size) :
    ((execute settings (callAt settings depth) scope (.declaration isConst name initial)).leaves
        m).scopes.names scope =
      m.scopes.names scope ++
        if completes settings (callAt settings depth) scope (.declaration isConst name initial) m
        then [name] else [] := by
  have keeps := keepsNames_evaluateValue settings depth scope
    ("initializer of '" ++ name.asText ++ "'") initial m scope exist
  rw [leaves, completes, execute, executeDeclaration]
  cases hvalue : evaluateValue settings (callAt settings depth) scope
      ("initializer of '" ++ name.asText ++ "'") initial m with
  | error error m₁ =>
    rw [leaves_of_error hvalue] at keeps
    rw [bind_of_error hvalue]
    simpa using keeps.2
  | ok value m₁ =>
    rw [leaves_of_ok hvalue] at keeps
    rw [bind_of_ok hvalue]
    cases problem : m₁.scopes.declareProblem? scope name with
    | some error =>
      have failed : declare scope name value isConst m₁ = .error error m₁ := by
        rw [declare, updateScopes_apply, problem]
      rw [bind_of_error failed]
      simpa using keeps.2
    | none =>
      have done : declare scope name value isConst m₁ =
          .ok () { m₁ with scopes := m₁.scopes.bind scope name value isConst } := by
        rw [declare, updateScopes_apply, problem]
      obtain ⟨log, hlog⟩ := emit_apply settings (.declared isConst name value)
        { m₁ with scopes := m₁.scopes.bind scope name value isConst }
      rw [bind_of_ok done, bind_of_ok hlog]
      simp only [pure_apply, if_true]
      rw [Scopes.names_bind value isConst keeps.1, keeps.2]

/-- The declaration of a function that fails later on, when its line is logged, has declared its
name by then. -/
theorem names_function (call : Caller) (name : Name) (params : Datum) (body : Node)
    (exist : scope < m.scopes.cells.size) :
    ((execute settings call scope (.function name params body)).leaves m).scopes.names scope =
      m.scopes.names scope ++
        if takesEffect settings call scope (.function name params body) m then [name] else [] := by
  rw [execute, executeFunction, takesEffect]
  cases problem : m.scopes.declareProblem? scope name with
  | some error =>
    have failed : declareFunction scope name ⟨params, body⟩ m = .error error m := by
      rw [declareFunction, updateScopes_apply, problem]
    rw [leaves_of_error (bind_of_error failed _), failed]
    simp
  | none =>
    have done : declareFunction scope name ⟨params, body⟩ m =
        .ok () { m with scopes := m.scopes.bindFunction scope name ⟨params, body⟩ } := by
      rw [declareFunction, updateScopes_apply, problem]
    have quiet := (quiet_emit? settings Event.declarationLevel
      ((params.items?.bind Datum.words?).map fun words => .defined name words)).bind
      fun _ => quiet_pure Completion.normal
    have logged := quiet.keepsNames
      { m with scopes := m.scopes.bindFunction scope name ⟨params, body⟩ } scope (by simpa)
    rw [leaves_bind_of_ok done, done, logged.2]
    simp [Scopes.names_bindFunction _ exist]

mutual

/-- A scope gets the names of the declarations that take effect, in their order. -/
theorem names_execute (node : Node) {m : Machine} (exist : scope < m.scopes.cells.size) :
    ((execute settings (callAt settings depth) scope node).leaves m).scopes.names scope =
      m.scopes.names scope ++ declaredNames settings (callAt settings depth) scope
        (takesEffect settings (callAt settings depth) scope) node m := by
  cases node with
  | block statements =>
    rw [execute, declaredNames]
    exact names_executeAll statements exist
  | declaration isConst name initial =>
    rw [declaredNames]
    exact names_declaration settings depth scope isConst name initial exist
  | function name params body =>
    rw [declaredNames]
    exact names_function settings scope _ name params body exist
  | _ =>
    rw [declaredNames, List.append_nil]
    · exact (keepsNames_execute settings depth scope (by simp) (by simp) (by simp) m scope exist).2
    all_goals simp
termination_by structural node

theorem names_executeAll (nodes : List Node) {m : Machine} (exist : scope < m.scopes.cells.size) :
    ((executeAll settings (callAt settings depth) scope nodes).leaves m).scopes.names scope =
      m.scopes.names scope ++ declaredNamesIn settings (callAt settings depth) scope
        (takesEffect settings (callAt settings depth) scope) nodes m := by
  cases nodes with
  | nil => exact (List.append_nil _).symm
  | cons node rest =>
    have first := names_execute node exist
    rw [executeAll, declaredNamesIn]
    cases h : execute settings (callAt settings depth) scope node m with
    | error error m₁ =>
      rw [leaves_of_error h] at first
      rw [leaves_of_error (bind_of_error h _), first]
      simp
    | ok completion m₁ =>
      rw [leaves_of_ok h] at first
      rw [leaves_bind_of_ok h]
      cases completion with
      | returned value =>
        dsimp only
        rw [List.append_nil]
        exact first
      | normal =>
        dsimp only
        rw [names_executeAll rest (exists_after_execute settings depth scope exist h), first,
          List.append_assoc]
termination_by structural nodes

end

end

section

variable {call : Caller} {scope : ScopeId} {counts : Node → Machine → Bool}

mutual

/-- If all declarations that complete count, those that count come first among all, and are all of
them if execution comes to the end. -/
theorem declaredNames_direct
    (counted : ∀ {node m completion m'}, execute settings call scope node m = .ok completion m' →
      counts node m = true) (node : Node) (m : Machine) :
    declaredNames settings call scope counts node m <+: node.directNames ∧
      ∀ m', execute settings call scope node m = .ok .normal m' →
        declaredNames settings call scope counts node m = node.directNames := by
  cases node with
  | block statements =>
    rw [declaredNames, Node.directNames, execute]
    exact declaredNamesIn_direct counted statements m
  | declaration isConst name initial | function name params body =>
    rw [declaredNames, Node.directNames]
    refine ⟨?_, fun m' done => if_pos (counted done)⟩
    split
    · exact List.prefix_refl _
    · exact List.nil_prefix
  | _ => exact ⟨List.nil_prefix, fun _ _ => rfl⟩
termination_by structural node

theorem declaredNamesIn_direct
    (counted : ∀ {node m completion m'}, execute settings call scope node m = .ok completion m' →
      counts node m = true) (nodes : List Node) (m : Machine) :
    declaredNamesIn settings call scope counts nodes m <+: Node.directNamesIn nodes ∧
      ∀ m', executeAll settings call scope nodes m = .ok .normal m' →
        declaredNamesIn settings call scope counts nodes m = Node.directNamesIn nodes := by
  cases nodes with
  | nil => exact ⟨List.nil_prefix, fun _ _ => rfl⟩
  | cons node rest =>
    have first := declaredNames_direct counted node m
    rw [declaredNamesIn, Node.directNamesIn, executeAll]
    cases h : execute settings call scope node m with
    | error error m₁ =>
      rw [bind_of_error h]
      dsimp only
      rw [List.append_nil]
      exact ⟨first.1.trans (List.prefix_append _ _), nofun⟩
    | ok completion m₁ =>
      rw [bind_of_ok h]
      cases completion with
      | returned value =>
        dsimp only
        rw [List.append_nil]
        exact ⟨first.1.trans (List.prefix_append _ _), nofun⟩
      | normal =>
        have others := declaredNamesIn_direct counted rest m₁
        rw [first.2 m₁ h]
        exact ⟨(List.prefix_append_right_inj _).mpr others.1, fun m' done =>
          congrArg _ (others.2 m' done)⟩
termination_by structural nodes

end

/-- A function is declared without completing only if its line cannot be logged. -/
theorem takesEffect_eq_completes {node : Node}
    (loggable : ∀ m', execute settings call scope node m ≠ .error .wrongShape m') :
    takesEffect settings call scope node m = completes settings call scope node m := by
  cases node with
  | function name params body =>
    rw [execute, executeFunction] at loggable
    rw [takesEffect, completes, execute, executeFunction]
    cases declared : declareFunction scope name ⟨params, body⟩ m with
    | error error m₁ => rw [bind_of_error declared]
    | ok u m₁ =>
      rw [bind_of_ok declared] at loggable ⊢
      cases hevent : (params.items?.bind Datum.words?).map fun words =>
          Event.defined name words with
      | some event =>
        obtain ⟨log, hlog⟩ := emit_apply settings event m₁
        rw [emit?, bind_of_ok hlog]
        rfl
      | none =>
        rw [hevent, emit?] at loggable
        rw [emit?]
        by_cases shown : Event.declarationLevel ≤ settings.logLevel
        · rw [if_pos shown] at loggable
          exact absurd rfl (loggable m₁)
        · rw [if_neg shown]
          rfl
  | _ => rfl

mutual

/-- Unless a line cannot be logged, the declarations that take effect are those that complete. -/
theorem declaredNames_completes (node : Node) {m : Machine}
    (loggable : ∀ m', execute settings call scope node m ≠ .error .wrongShape m') :
    declaredNames settings call scope (takesEffect settings call scope) node m =
      declaredNames settings call scope (completes settings call scope) node m := by
  cases node with
  | block statements =>
    rw [execute] at loggable
    rw [declaredNames, declaredNames]
    exact declaredNamesIn_completes statements loggable
  | declaration isConst name initial | function name params body =>
    rw [declaredNames, declaredNames, takesEffect_eq_completes loggable]
  | _ => rfl
termination_by structural node

theorem declaredNamesIn_completes (nodes : List Node) {m : Machine}
    (loggable : ∀ m', executeAll settings call scope nodes m ≠ .error .wrongShape m') :
    declaredNamesIn settings call scope (takesEffect settings call scope) nodes m =
      declaredNamesIn settings call scope (completes settings call scope) nodes m := by
  cases nodes with
  | nil => rfl
  | cons node rest =>
    rw [executeAll] at loggable
    have first : declaredNames settings call scope (takesEffect settings call scope) node m =
        declaredNames settings call scope (completes settings call scope) node m := by
      refine declaredNames_completes node fun m' failed => ?_
      exact loggable m' (bind_of_error failed _)
    rw [declaredNamesIn, declaredNamesIn, first]
    cases h : execute settings call scope node m with
    | error error m₁ => rfl
    | ok completion m₁ =>
      cases completion with
      | returned value => rfl
      | normal =>
        rw [bind_of_ok h] at loggable
        exact congrArg _ (declaredNamesIn_completes rest loggable)
termination_by structural nodes

end

end

end Eval

end ScopeScript
