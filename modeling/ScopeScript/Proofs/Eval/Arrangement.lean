import ScopeScript.Proofs.Eval.Activity
import ScopeScript.Proofs.Eval.Concatenation
import ScopeScript.Proofs.Source.Arrangement
set_option autoImplicit false

/-!
# Eval: arrangements of statements mean what their texts do

A block among other statements runs in their scope, one statement after the other, and so do its
statements in its place.  Opening the blocks in a tree and in the bodies of all functions of a state
therefore leaves the outcome of a run as it is, but for the bodies of functions that it declares,
which have their blocks opened too.

So a tree runs like what is read back from its text, as long as no call stands behind a bare
`return`.
-/

namespace ScopeScript

/-! ## Opened blocks -/

namespace Node

theorem flatAll_append (nodes others : List Node) :
    flatAll (nodes ++ others) = flatAll nodes ++ flatAll others := by
  induction nodes with
  | nil => rfl
  | cons node rest ih => rw [List.cons_append, flatAll, flatAll, ih, List.append_assoc]

theorem flatAll_opened (node : Node) : flatAll node.opened = node.flat.opened := by
  cases node <;> simp [opened, flat, flatAll]

mutual

/-- Once all blocks are opened, there are none to open. -/
theorem flat_flat (node : Node) : node.flat.flat = node.flat := by
  cases node with
  | block statements => rw [flat, flat, flatAll_flatAll statements]
  | function name params body => rw [flat, flat, flat_flat body]
  | choice condition thenBlock elseBlock =>
    rw [flat, flat, flat_flat thenBlock, flat_flat elseBlock]
  | _ => rfl
termination_by structural node

theorem flatAll_flatAll (nodes : List Node) : flatAll (flatAll nodes) = flatAll nodes := by
  cases nodes with
  | nil => rfl
  | cons node rest =>
    rw [flatAll, flatAll_append, flatAll_opened, flat_flat node, flatAll_flatAll rest]
termination_by structural nodes

end

end Node

/-! ## States -/

/-- The code with the blocks in its body opened. -/
def Code.flat (code : Code) : Code := { code with body := code.body.flat }

/-- The scope with the blocks in the bodies of its functions opened. -/
def Scope.flat (scope : Scope) : Scope :=
  { scope with functions := scope.functions.map fun entry => (entry.1, entry.2.flat) }

/-- The scopes with the blocks in the bodies of all functions opened. -/
def Scopes.flat (scopes : Scopes) : Scopes := ⟨scopes.cells.map Scope.flat⟩

/-- The state with the blocks in the bodies of all functions opened. -/
def Machine.flat (m : Machine) : Machine := { m with scopes := m.scopes.flat }

@[simp] theorem Machine.scopes_flat (m : Machine) : m.flat.scopes = m.scopes.flat := rfl

namespace Scopes

theorem get_flat (scopes : Scopes) (id : ScopeId) : scopes.flat.get id = (scopes.get id).flat := by
  simp only [get, flat, Array.getD_eq_getD_getElem?, Array.getElem?_map]
  cases scopes.cells[id]? <;> rfl

theorem chain_flat (scopes : Scopes) (id : ScopeId) : scopes.flat.chain id = scopes.chain id := by
  rw [chain, get_flat]
  rfl

theorem binding?_flat (scopes : Scopes) (id : ScopeId) (name : Name) :
    scopes.flat.binding? id name = scopes.binding? id name := by
  rw [binding?, get_flat]
  rfl

theorem resolve?_flat (scopes : Scopes) (id : ScopeId) (name : Name) :
    scopes.flat.resolve? id name = scopes.resolve? id name := by
  simp only [resolve?, chain_flat, binding?_flat]

theorem lookup_flat (scopes : Scopes) (id : ScopeId) (name : Name) :
    scopes.flat.lookup id name = scopes.lookup id name := by
  simp only [lookup, resolve?_flat, binding?_flat]

theorem declareProblem?_flat (scopes : Scopes) (id : ScopeId) (name : Name) :
    scopes.flat.declareProblem? id name = scopes.declareProblem? id name := by
  simp only [declareProblem?, binding?_flat]

theorem assignProblem?_flat (scopes : Scopes) (id : ScopeId) (name : Name) :
    scopes.flat.assignProblem? id name = scopes.assignProblem? id name := by
  simp only [assignProblem?, resolve?_flat, binding?_flat]

theorem code_flat (scopes : Scopes) (home : ScopeId) (name : Name) :
    scopes.flat.code home name = (scopes.code home name).flat := by
  simp only [code, get_flat, Scope.flat, Entries.lookup_map]
  cases (scopes.get home).functions.lookup name <;> rfl

theorem modify_flat (scopes : Scopes) (id : ScopeId) {change change' : Scope → Scope}
    (same : ∀ scope, (change scope).flat = change' scope.flat) :
    (scopes.modify id change).flat = scopes.flat.modify id change' := by
  simp only [modify, flat, mk.injEq]
  apply Array.ext
  · simp
  · intro i _ _
    simp only [Array.getElem_map, Array.getElem_modify]
    split
    · exact same _
    · rfl

theorem bind_flat (scopes : Scopes) (id : ScopeId) (name : Name) (value : Value) (isConst : Bool) :
    (scopes.bind id name value isConst).flat = scopes.flat.bind id name value isConst :=
  scopes.modify_flat id fun _ => rfl

theorem bindFunction_flat (scopes : Scopes) (id : ScopeId) (name : Name) (code : Code) :
    (scopes.bindFunction id name code).flat = scopes.flat.bindFunction id name code.flat := by
  rw [bindFunction, bindFunction, ← bind_flat]
  apply modify_flat
  intro scope
  simp [Scope.flat]

theorem store_flat (scopes : Scopes) (id : ScopeId) (name : Name) (value : Value) :
    (scopes.store id name value).flat = scopes.flat.store id name value := by
  unfold store
  rw [resolve?_flat]
  split
  · exact scopes.modify_flat _ fun _ => rfl
  · rfl

theorem size_flat (scopes : Scopes) : scopes.flat.cells.size = scopes.cells.size := Array.size_map

theorem add_flat (scopes : Scopes) (outer : List ScopeId) :
    (scopes.flat.add outer).2 = (scopes.add outer).2.flat := by
  simp [add, flat, Scope.flat]

end Scopes

namespace Eval

variable {α β : Type}

/-- What a computation ends in. -/
abbrev Outcome (α : Type) : Type := EStateM.Result Error Machine α

/-- The outcome with the blocks in the bodies of all functions of the state opened. -/
def Outcome.flat : Outcome α → Outcome α
  | .ok a m => .ok a m.flat
  | .error error m => .error error m.flat

/-! ## Computations among opened blocks -/

/-- Where all blocks are opened, the second computation does what the first one does where they are
not. -/
def Mirrors (x x' : Eval α) : Prop := ∀ m : Machine, x' m.flat = Outcome.flat (x m)

theorem mirrors_pure (a : α) : Mirrors (pure a) (pure a) := fun _ => rfl

theorem mirrors_throw (error : Error) : Mirrors (throw error : Eval α) (throw error) := fun _ => rfl

theorem Mirrors.bind {x x' : Eval α} {f f' : α → Eval β} (hx : Mirrors x x')
    (hf : ∀ a, Mirrors (f a) (f' a)) : Mirrors (x >>= f) (x' >>= f') := by
  intro m
  rw [bind_apply, bind_apply, hx m]
  cases x m with
  | ok a left => exact hf a left
  | error error left => rfl

theorem mirrors_get {f f' : Machine → Eval α} (h : ∀ m, Mirrors (f m) (f' m.flat)) :
    Mirrors (get >>= f) (get >>= f') := fun m => h m m

theorem mirrors_ofExcept (result : Except Error α) :
    Mirrors (ofExcept result) (ofExcept result) := by
  cases result with
  | ok a => exact mirrors_pure a
  | error error => exact mirrors_throw error

theorem mirrors_demand (description : String) (value : Value) :
    Mirrors (demand description value) (demand description value) := by
  unfold demand
  split
  · exact mirrors_throw _
  · exact mirrors_pure value

theorem mirrors_lookup (scope : ScopeId) (name : Name) :
    Mirrors (lookup scope name) (lookup scope name) := by
  unfold lookup
  refine mirrors_get fun m => ?_
  rw [Machine.scopes_flat, Scopes.lookup_flat]
  split
  · exact mirrors_pure _
  · exact mirrors_throw _

theorem mirrors_updateScopes {problem? : Scopes → Option Error} {change change' : Scopes → Scopes}
    (same : ∀ scopes, problem? scopes.flat = problem? scopes)
    (changes : ∀ scopes, (change scopes).flat = change' scopes.flat) :
    Mirrors (updateScopes problem? change) (updateScopes problem? change') := by
  intro m
  rw [updateScopes_apply, updateScopes_apply, Machine.scopes_flat, same]
  cases problem? m.scopes with
  | some error => rfl
  | none =>
    rw [← changes]
    rfl

theorem mirrors_declare (scope : ScopeId) (name : Name) (value : Value) (isConst : Bool) :
    Mirrors (declare scope name value isConst) (declare scope name value isConst) :=
  mirrors_updateScopes (fun scopes => scopes.declareProblem?_flat scope name)
    fun scopes => scopes.bind_flat scope name value isConst

theorem mirrors_declareAll (scope : ScopeId) (pairs : List (Name × Value)) :
    Mirrors (declareAll scope pairs) (declareAll scope pairs) := by
  induction pairs with
  | nil => exact mirrors_pure ()
  | cons pair rest ih => exact (mirrors_declare scope pair.1 pair.2 false).bind fun _ => ih

theorem mirrors_declareFunction (scope : ScopeId) (name : Name) (code : Code) :
    Mirrors (declareFunction scope name code) (declareFunction scope name code.flat) :=
  mirrors_updateScopes (fun scopes => scopes.declareProblem?_flat scope name)
    fun scopes => scopes.bindFunction_flat scope name code

theorem mirrors_assign (scope : ScopeId) (name : Name) (value : Value) :
    Mirrors (assign scope name value) (assign scope name value) :=
  mirrors_updateScopes (fun scopes => scopes.assignProblem?_flat scope name)
    fun scopes => scopes.store_flat scope name value

theorem mirrors_newScope (scope : ScopeId) : Mirrors (newScope scope) (newScope scope) := by
  intro m
  rw [newScope_apply, newScope_apply]
  simp only [Machine.flat, Outcome.flat, Scopes.chain_flat, Scopes.size_flat, Scopes.add_flat]

theorem mirrors_emit (settings : Settings) (event : Event) :
    Mirrors (emit settings event) (emit settings event) := by
  unfold emit
  split
  · exact fun _ => rfl
  · exact mirrors_pure ()

theorem mirrors_emit? (settings : Settings) (level : Nat) (event : Option Event) :
    Mirrors (emit? settings level event) (emit? settings level event) := by
  cases event with
  | some event => exact mirrors_emit settings event
  | none =>
    change Mirrors (if level ≤ settings.logLevel then throw .wrongShape else pure ())
      (if level ≤ settings.logLevel then throw .wrongShape else pure ())
    split
    · exact mirrors_throw _
    · exact mirrors_pure ()

/-! ## Properties -/

theorem mirrors_handleTarget (scope : ScopeId) (name : Name) :
    Mirrors (handleTarget scope name) (handleTarget scope name) := by
  refine (mirrors_lookup scope name).bind fun value => ?_
  split
  · exact mirrors_pure _
  · exact mirrors_throw _

theorem mirrors_readPath (settings : Settings) (scope : ScopeId) (name : Name)
    (properties : Datum) :
    Mirrors (readPath settings scope name properties)
      (readPath settings scope name properties) := by
  refine (mirrors_handleTarget scope name).bind fun target => ?_
  split
  · refine mirrors_get fun m => (mirrors_ofExcept _).bind fun value => ?_
    exact (mirrors_emit? settings _ _).bind fun _ => mirrors_ofExcept _
  · exact mirrors_throw _

theorem mirrors_assignPath (settings : Settings) (scope : ScopeId) (name property : String)
    (rest : List String) (value : Value) :
    Mirrors (assignPath settings scope name property rest value)
      (assignPath settings scope name property rest value) := by
  refine (mirrors_handleTarget scope (.text name)).bind fun target => ?_
  refine mirrors_get fun m => (mirrors_ofExcept _).bind fun objects => ?_
  have written : Mirrors (EStateM.set { m with objects := objects })
      (EStateM.set { m.flat with objects := objects }) := fun _ => rfl
  exact written.bind fun _ => mirrors_emit settings _

/-! ## Expressions -/

/-- Calls of a function do the same where the blocks in its body are opened. -/
def CallerMirrors (call call' : Caller) : Prop :=
  ∀ (home : ScopeId) (name : Name) (code : Code) (arguments : List Value),
    Mirrors (call home name code arguments) (call' home name code.flat arguments)

variable {settings : Settings} {call call' : Caller}

theorem mirrors_applyFunction (calls : CallerMirrors call call') (scope : ScopeId) (name : Name)
    (count? : Option Nat) {arguments arguments' : Eval (List Value)}
    (harguments : Mirrors arguments arguments') :
    Mirrors (applyFunction call scope name count? arguments)
      (applyFunction call' scope name count? arguments') := by
  refine (mirrors_lookup scope name).bind fun value => ?_
  split
  · rename_i home declared
    refine mirrors_get fun m => ?_
    rw [Machine.scopes_flat, Scopes.code_flat]
    dsimp only [Code.flat]
    split
    · split
      · exact harguments.bind fun values => calls home declared _ values
      · exact mirrors_throw _
    · exact mirrors_throw _
  · exact mirrors_throw _

theorem mirrors_evaluateData (calls : CallerMirrors call call') (scope : ScopeId) (datum : Datum) :
    Mirrors (evaluateData call scope datum) (evaluateData call' scope datum) := by
  unfold evaluateData
  split
  · refine mirrors_applyFunction calls scope _ _ ?_
    unfold refuseArguments
    split
    · exact mirrors_pure _
    · exact mirrors_throw _
  · exact mirrors_throw _

mutual

theorem mirrors_evaluate (calls : CallerMirrors call call') (scope : ScopeId) (node : Node) :
    Mirrors (evaluate settings call scope node) (evaluate settings call' scope node) := by
  cases node with
  | literal value => exact mirrors_pure value
  | identifier name properties =>
    simp only [evaluate]
    split
    · exact mirrors_lookup scope name
    · exact mirrors_readPath settings scope name properties
  | call name arguments =>
    exact mirrors_applyFunction calls scope name _
      (mirrors_evaluateArguments calls scope name 1 arguments)
  | unary op operand =>
    refine (mirrors_evaluate calls scope operand).bind fun value => ?_
    exact (mirrors_demand _ value).bind fun _ => mirrors_ofExcept _
  | binary op left right =>
    refine (mirrors_evaluate calls scope left).bind fun a => ?_
    refine (mirrors_demand _ a).bind fun a => ?_
    refine (mirrors_evaluate calls scope right).bind fun b => ?_
    refine (mirrors_demand _ b).bind fun b => ?_
    exact mirrors_get fun m => mirrors_ofExcept _
  | data datum => exact mirrors_evaluateData calls scope datum
  | _ => exact mirrors_throw _
termination_by structural node

theorem mirrors_evaluateArguments (calls : CallerMirrors call call') (scope : ScopeId)
    (name : Name) (index : Nat) (nodes : List Node) :
    Mirrors (evaluateArguments settings call scope name index nodes)
      (evaluateArguments settings call' scope name index nodes) := by
  cases nodes with
  | nil => exact mirrors_pure []
  | cons node rest =>
    refine (mirrors_evaluate calls scope node).bind fun value => ?_
    refine (mirrors_demand _ value).bind fun value => ?_
    exact (mirrors_evaluateArguments calls scope name (index + 1) rest).bind fun values =>
      mirrors_pure _
termination_by structural nodes

end

theorem mirrors_evaluateValue (calls : CallerMirrors call call') (scope : ScopeId)
    (description : String) (node : Node) :
    Mirrors (evaluateValue settings call scope description node)
      (evaluateValue settings call' scope description node) :=
  (mirrors_evaluate calls scope node).bind fun value => mirrors_demand description value

/-! ## Statements -/

theorem mirrors_executeDeclaration (calls : CallerMirrors call call') (scope : ScopeId)
    (isConst : Bool) (name : Name) (initial : Node) :
    Mirrors (executeDeclaration settings call scope isConst name initial)
      (executeDeclaration settings call' scope isConst name initial) := by
  refine (mirrors_evaluateValue calls scope _ initial).bind fun value => ?_
  refine (mirrors_declare scope name value isConst).bind fun _ => ?_
  exact (mirrors_emit settings _).bind fun _ => mirrors_pure _

theorem mirrors_executeAssignment (calls : CallerMirrors call call') (scope : ScopeId)
    (target value : Node) :
    Mirrors (executeAssignment settings call scope target value)
      (executeAssignment settings call' scope target value) := by
  unfold executeAssignment
  split
  · split
    · rename_i name properties _
      refine (mirrors_evaluateValue calls scope _ value).bind fun value => ?_
      have assigned : ∀ {y y' : Eval Unit}, Mirrors y y' → ∀ event : Event,
          Mirrors (do y; emit settings event; pure Completion.normal)
            (do y'; emit settings event; pure Completion.normal) := fun hy event =>
        hy.bind fun _ => (mirrors_emit settings event).bind fun _ => mirrors_pure _
      cases properties with
      | nil => exact assigned (mirrors_assign scope (.text name) value) _
      | cons property rest =>
        exact assigned (mirrors_assignPath settings scope name property rest value) _
    · exact mirrors_throw _
  · exact mirrors_throw _

theorem mirrors_executeFunction (settings : Settings) (scope : ScopeId) (name : Name)
    (params : Datum) (body : Node) :
    Mirrors (executeFunction settings scope name params body)
      (executeFunction settings scope name params body.flat) := by
  refine (mirrors_declareFunction scope name ⟨params, body⟩).bind fun _ => ?_
  exact (mirrors_emit? settings _ _).bind fun _ => mirrors_pure _

/-- What stands in the place of statements does not depend on the state. -/
theorem mirrors_executeNone (field : Datum) : Mirrors (executeNone field) (executeNone field) := by
  unfold executeNone
  split
  · exact mirrors_pure _
  · exact mirrors_throw _
  · exact mirrors_throw _

theorem mirrors_executeData (datum : Datum) : Mirrors (executeData datum) (executeData datum) := by
  unfold executeData
  split
  · exact mirrors_executeNone _
  · exact mirrors_throw _

/-- Statements in front of others are executed first. -/
theorem executeAll_append (scope : ScopeId) (xs ys : List Node) :
    executeAll settings call scope (xs ++ ys) =
      (do match ← executeAll settings call scope xs with
          | .normal => executeAll settings call scope ys
          | returned => pure returned) := by
  funext m
  have whole := execute_append settings call scope xs ys m
  simp only [execute] at whole
  rw [whole, bind_apply]
  cases executeAll settings call scope xs m with
  | error error left => rfl
  | ok completion left => cases completion <;> rfl

/-- A statement does what those do that it stands for. -/
theorem executeAll_opened (scope : ScopeId) (node : Node) :
    executeAll settings call scope node.opened = execute settings call scope node := by
  have single : executeAll settings call scope [node] = execute settings call scope node := by
    funext m
    rw [executeAll, bind_apply]
    cases execute settings call scope node m with
    | error error left => rfl
    | ok completion left => cases completion <;> rfl
  cases node with
  | block statements => rfl
  | _ => exact single

mutual

/-- A statement does the same when its blocks are opened. -/
theorem mirrors_execute (calls : CallerMirrors call call') (scope : ScopeId) (node : Node) :
    Mirrors (execute settings call scope node) (execute settings call' scope node.flat) := by
  cases node with
  | block statements => exact mirrors_executeAll calls scope statements
  | declaration isConst name initial =>
    exact mirrors_executeDeclaration calls scope isConst name initial
  | assignment target value => exact mirrors_executeAssignment calls scope target value
  | function name params body => exact mirrors_executeFunction settings scope name params body
  | giveBack value =>
    by_cases absent : value = .absent
    · subst absent
      exact mirrors_pure _
    · rw [show (Node.giveBack value).flat = .giveBack value from rfl, execute_giveBack absent,
        execute_giveBack absent]
      exact (mirrors_evaluateValue calls scope _ value).bind fun _ => mirrors_pure _
  | callStatement inner =>
    exact (mirrors_evaluate calls scope inner).bind fun _ => mirrors_pure _
  | choice condition thenBlock elseBlock =>
    refine (mirrors_evaluateValue calls scope _ condition).bind fun value => ?_
    refine (mirrors_ofExcept value.isTruthy).bind fun truth => ?_
    refine (mirrors_emit settings _).bind fun _ => ?_
    split
    · exact mirrors_executeBranch calls scope thenBlock
    · exact mirrors_executeBranch calls scope elseBlock
  | data datum => exact mirrors_executeData datum
  | _ => exact mirrors_throw _
termination_by structural node

theorem mirrors_executeBranch (calls : CallerMirrors call call') (scope : ScopeId) (node : Node) :
    Mirrors (executeBranch settings call scope node)
      (executeBranch settings call' scope node.flat) := by
  cases node with
  | block statements =>
    exact (mirrors_newScope scope).bind fun inner => mirrors_executeAll calls inner statements
  | absent => exact mirrors_pure _
  | data datum =>
    simp only [Node.flat]
    unfold executeBranch
    split
    · contradiction
    · contradiction
    · exact mirrors_executeNone _
    · exact mirrors_throw _
  | _ => exact mirrors_throw _
termination_by structural node

/-- The statements of a block are executed in its place. -/
theorem mirrors_executeAll (calls : CallerMirrors call call') (scope : ScopeId)
    (nodes : List Node) :
    Mirrors (executeAll settings call scope nodes)
      (executeAll settings call' scope (Node.flatAll nodes)) := by
  cases nodes with
  | nil => exact mirrors_pure _
  | cons node rest =>
    rw [Node.flatAll, executeAll_append, executeAll_opened, executeAll]
    refine (mirrors_execute calls scope node).bind fun completion => ?_
    cases completion with
    | normal => exact mirrors_executeAll calls scope rest
    | returned value => exact mirrors_pure _
termination_by structural nodes

end

theorem mirrors_executeBody (calls : CallerMirrors call call') (scope : ScopeId) (body : Node) :
    Mirrors (executeBody settings call scope body)
      (executeBody settings call' scope body.flat) := by
  cases body with
  | block statements => exact mirrors_executeAll calls scope statements
  | data datum =>
    simp only [Node.flat]
    unfold executeBody
    split
    · contradiction
    · exact mirrors_executeNone _
    · exact mirrors_throw _
  | _ => exact mirrors_throw _

/-! ## Calls -/

theorem mirrors_callAt (settings : Settings) (depth : Nat) :
    CallerMirrors (callAt settings depth) (callAt settings depth) := by
  induction depth with
  | zero => exact fun _ _ _ _ => mirrors_throw _
  | succ depth ih =>
    intro home name code arguments
    refine (mirrors_newScope home).bind fun scope => ?_
    refine (mirrors_declareAll scope _).bind fun _ => ?_
    refine (mirrors_emit settings _).bind fun _ => ?_
    exact (mirrors_executeBody ih scope code.body).bind fun _ => mirrors_pure _

/-- Opening the blocks of a tree changes no outcome, but for blocks in the bodies of functions. -/
theorem execute_flat (settings : Settings) (scope : ScopeId) (node : Node) (m : Machine) :
    Outcome.flat (execute settings settings.caller scope node.flat m) =
      Outcome.flat (execute settings settings.caller scope node m) := by
  have calls := mirrors_callAt settings mostNestedCalls
  calc
    Outcome.flat (execute settings settings.caller scope node.flat m)
    _ = execute settings settings.caller scope node.flat.flat m.flat :=
      (mirrors_execute calls scope node.flat m).symm
    _ = execute settings settings.caller scope node.flat m.flat := by rw [Node.flat_flat]
    _ = Outcome.flat (execute settings settings.caller scope node m) :=
      mirrors_execute calls scope node m

end Eval

open Eval (Outcome execute)

/-- Printing a tree and parsing the text changes nothing but how statements are arranged: blocks
among other statements are opened, and a call behind a bare `return` is taken for the value
returned.

Unless a call stands behind a bare `return`, only blocks are opened, and the tree that is read back
runs like the one that was printed: from any state, both end in the same result or error, with the
same bindings, objects and log, and declare functions whose bodies differ in opened blocks only. -/
theorem printed_arrangements_run_alike (node : Node) (h : node.blockArranged = true)
    (level : Int) :
    ∃ text tree, node.print level = .ok text ∧ parseProgram text = .ok tree ∧
      tree = node.flat.joined ∧ (tree = node.flat ↔ node.flat.separated = true) ∧
      (node.flat.separated = true → ∀ (settings : Settings) (scope : ScopeId) (m : Machine),
        Outcome.flat (execute settings settings.caller scope tree m) =
          Outcome.flat (execute settings settings.caller scope node m)) := by
  obtain ⟨text, printed, parsed⟩ := Node.parse_print_arranged h level
  refine ⟨text, _, printed, parsed, rfl, Node.joined_flat_eq_iff h, ?_⟩
  intro separated settings scope m
  rw [(Node.joined_flat_eq_iff h).mpr separated]
  exact Eval.execute_flat settings scope node m

/-- Blocks among other statements, also of a function, and bare returns in front of anything but a
call. -/
def nestedBlocks : Node :=
  .block [
    .block [
      .function (.text "log") (.ofWords ["n"]) (.block [
        .block [
          .choice
            (.binary .less (.identifier (.text "n") (.ofWords []))
              (.literal (.number (.finite ⟨false, 2, 0⟩))))
            (.block [
              .giveBack .absent,
              .block [.declaration true (.text "m") (.literal (.text "unreached"))]])
            .absent],
        .giveBack (.identifier (.text "n") (.ofWords []))])],
    .callStatement (.call (.text "log") [.literal (.number (.finite ⟨false, 10, -1⟩))]),
    .giveBack .absent,
    .block []]

theorem printed_arrangements_run_alike_nestedBlocks :
    nestedBlocks.blockArranged = true ∧ nestedBlocks.flat.separated = true ∧
      ∃ text tree, nestedBlocks.print 0 = .ok text ∧ parseProgram text = .ok tree ∧
        ∀ (settings : Settings) (scope : ScopeId) (m : Machine),
          Outcome.flat (execute settings settings.caller scope tree m) =
            Outcome.flat (execute settings settings.caller scope nestedBlocks m) := by
  obtain ⟨text, tree, printed, parsed, -, -, alike⟩ :=
    printed_arrangements_run_alike nestedBlocks (by decide) 0
  exact ⟨by decide, by decide, text, tree, printed, parsed, alike (by decide)⟩

/-- A function, and a call of it behind a bare `return`. -/
def callBehindReturn : Node :=
  .block [
    .function (.text "f") (.ofWords []) (.block [
      .giveBack (.literal (.number (.finite ⟨false, 1, 0⟩)))]),
    .giveBack .absent,
    .callStatement (.call (.text "f") [])]

/-- What is read back from the text of a tree may return a value where the tree returns none. -/
theorem callBehindReturn_is_read_as_value :
    callBehindReturn.blockArranged = true ∧
      ∃ tree, callBehindReturn.print 0 =
          .ok "func f() \x7b\n  return 1\n\x7d\nreturn\nf()\n" ∧
        parseProgram "func f() \x7b\n  return 1\n\x7d\nreturn\nf()\n" = .ok tree ∧
        ∃ left left',
          Eval.run {} globalScope callBehindReturn {} = .ok none left ∧
          Eval.run {} globalScope tree {} =
            .ok (some (.number (.finite ⟨false, 1, 0⟩))) left' := by
  have arranged : callBehindReturn.blockArranged = true := by decide
  obtain ⟨text, printed, parsed⟩ := Node.parse_print_arranged arranged 0
  have same : callBehindReturn.print 0 =
      .ok "func f() \x7b\n  return 1\n\x7d\nreturn\nf()\n" := by rfl
  obtain rfl : "func f() \x7b\n  return 1\n\x7d\nreturn\nf()\n" = text :=
    Except.ok.inj (same.symm.trans printed)
  exact ⟨arranged, _, same, parsed, _, _, rfl, rfl⟩

end ScopeScript
