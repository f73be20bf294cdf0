import ScopeScript.Proofs.Eval.TwinRun
import ScopeScript.Proofs.Scope.Growth
set_option autoImplicit false

/-!
# Eval: the moments of a run

A run passes a moment whenever a task is started for it and whenever one is over, with a result or
with an error.  Of the tasks that are started for one task, each starts where the one before it was
over, so the moments of a run follow each other in one line.

From each moment to every later one, scopes only grow.  To see that, two things are shown of a task
that is started for another one: the scopes change only a little until it starts, and only a little
more after it is over.
-/

namespace ScopeScript

/-! ## What tasks leave -/

/-- The state in which a task is over. -/
def Task.leaves (settings : Settings) : Task → Machine → Machine
  | .evaluate d s node => (Eval.evaluate settings (Eval.callAt settings d) s node).leaves
  | .arguments d s name index nodes =>
    (Eval.evaluateArguments settings (Eval.callAt settings d) s name index nodes).leaves
  | .call d home name code values => (Eval.callAt settings d home name code values).leaves
  | .execute d s node => (Eval.execute settings (Eval.callAt settings d) s node).leaves
  | .branch d s node => (Eval.executeBranch settings (Eval.callAt settings d) s node).leaves
  | .body d s node => (Eval.executeBody settings (Eval.callAt settings d) s node).leaves
  | .all d s nodes => (Eval.executeAll settings (Eval.callAt settings d) s nodes).leaves
  | .write s name property rest value =>
    (Eval.assignPath settings s name property rest value).leaves
  | .setProperty adapter target property value => fun m =>
    match adapter.write settings.classes m.objects target property value with
    | .ok (.stored objects) => { m with objects := objects }
    | _ => m

/-- Writing a property leaves the scopes alone. -/
theorem Task.scopes_setProperty (settings : Settings) (adapter : Adapter) (target : Value)
    (property : String) (value : Value) (m : Machine) :
    ((Task.setProperty adapter target property value).leaves settings m).scopes = m.scopes := by
  unfold Task.leaves
  dsimp only
  split <;> rfl

namespace Eval

/-- A state that a task passes: where it starts, where it is over, or one that is passed by a task
that is started for it. -/
inductive Moment (settings : Settings) : Task → Machine → Machine → Prop
  | start {task m} : Moment settings task m m
  | finish {task m} : Moment settings task m (task.leaves settings m)
  | inside {task m task' m' m₁} (start : Starts settings task m task' m')
    (h : Moment settings task' m' m₁) : Moment settings task m m₁

/-- A task passes the one state no later than the other one. -/
inductive Precedes (settings : Settings) : Task → Machine → Machine → Machine → Prop
  | start {task m m₁} (h : Moment settings task m m₁) : Precedes settings task m m m₁
  | finish {task m m₁} (h : Moment settings task m m₁) :
    Precedes settings task m m₁ (task.leaves settings m)
  | inside {task m task' m' m₁ m₂} (start : Starts settings task m task' m')
    (h : Precedes settings task' m' m₁ m₂) : Precedes settings task m m₁ m₂
  /-- the second task starts where the first one is over -/
  | across {task m first m' second m'' m₁ m₂} (start : Starts settings task m first m')
    (start' : Starts settings task m second m'')
    (after : m''.scopes = (first.leaves settings m').scopes) (h : Moment settings first m' m₁)
    (h' : Moment settings second m'' m₂) : Precedes settings task m m₁ m₂

end Eval

/-! ## Territories of tasks -/

/-- The task works on scopes and values of the territory. -/
def Task.Within (T : Territory) (scopes : Scopes) : Task → Prop
  | .evaluate _ s node | .branch _ s node => T.Holds scopes s ∧ T.GivesTree node
  | .arguments _ s _ _ nodes => T.Holds scopes s ∧ T.GivesTrees nodes
  | .call _ home _ code values =>
    T.Holds scopes home ∧ T.GivesTree code.body ∧ ∀ value ∈ values, T.HoldsValue scopes value
  | .execute _ s node | .body _ s node => T.Holds scopes s ∧ T.isOpen s ∧ T.GivesTree node
  | .all _ s nodes => T.Holds scopes s ∧ T.isOpen s ∧ T.GivesTrees nodes
  | .write s _ _ _ _ => T.Holds scopes s
  | .setProperty _ _ _ _ => True

namespace Eval

variable {α β : Type} {T : Territory} {settings : Settings} {m m' : Machine} {task task' : Task}

theorem twin_self (settled : T.Settled m.scopes) : m.Twin id T m :=
  ⟨Scopes.twin_self settled, rfl⟩

/-- A task changes the scopes in its territory only, whether it succeeds or fails. -/
theorem changes_leaves (settings : Settings) (settled : T.Settled m.scopes)
    (within : task.Within T m.scopes) :
    Scopes.Changes T m.scopes (task.leaves settings m).scopes := by
  have calls := callerParallel_callAt id T settings
  have twin := twin_self settled
  cases task with
  | evaluate d s node => exact (parallel_evaluate (calls d) node within.1 within.2 twin).changes
  | arguments d s name index nodes =>
    exact (parallel_evaluateArguments (calls d) nodes name index within.1 within.2 twin).changes
  | call d home name code values =>
    exact (calls d twin within.1 within.2.1 within.2.2).changes
  | execute d s node =>
    exact (parallel_execute (calls d) node within.1 within.2.1 within.2.2 twin).changes
  | branch d s node =>
    exact (parallel_executeBranch (calls d) node within.1 within.2 twin).changes
  | body d s node =>
    exact (parallel_executeBody (calls d) node within.1 within.2.1 within.2.2 twin).changes
  | all d s nodes =>
    exact (parallel_executeAll (calls d) nodes within.1 within.2.1 within.2.2 twin).changes
  | write s name property rest value =>
    exact (parallel_assignPath twin settings within name property rest value).changes
  | setProperty adapter target property value =>
    rw [Task.scopes_setProperty]

/-- Until a task is started for another one, the scopes change in the territory only, and the task
works in it as well. -/
theorem Starts.within (start : Starts settings task m task' m') (settled : T.Settled m.scopes)
    (within : task.Within T m.scopes) :
    Scopes.Changes T m.scopes m'.scopes ∧ task'.Within T m'.scopes := by
  have calls := callerParallel_callAt id T settings
  have twin := twin_self settled
  cases start with
  | operand | body | statements | arguments h => exact ⟨.refl, within⟩
  | initial | returned h | called => exact ⟨.refl, within.1, within.2.2⟩
  | left => exact ⟨.refl, within.1, (Node.everyLiteral_binary.mp within.2).1⟩
  | right h =>
    obtain ⟨givesLeft, givesRight⟩ := Node.everyLiteral_binary.mp within.2
    obtain ⟨-, -, -, changes, -⟩ :=
      (parallel_evaluateValue (calls _) _ _ within.1 givesLeft twin).ok h
    exact ⟨changes, within.1.mono (Scopes.Changes.size_le changes), givesRight⟩
  | call h hargs =>
    obtain ⟨-, -, -, changes, -, -, holds⟩ :=
      (parallel_evaluateArguments (calls _) _ _ _ within.1 within.2 twin).ok hargs
    have there := settled.lookup within.1 h.1 _ rfl
    exact ⟨changes, there.mono (Scopes.Changes.size_le changes), settled.code there _, holds⟩
  | callData hnone h =>
    have there := settled.lookup within.1 h.1 _ rfl
    exact ⟨.refl, there, settled.code there _, by simp⟩
  | argument => exact ⟨.refl, within.1, (Node.everyLiteralIn_cons.mp within.2).1⟩
  | moreArguments h =>
    obtain ⟨givesFirst, givesRest⟩ := Node.everyLiteralIn_cons.mp within.2
    obtain ⟨-, -, -, changes, -⟩ :=
      (parallel_evaluateValue (calls _) _ _ within.1 givesFirst twin).ok h
    exact ⟨changes, within.1.mono (Scopes.Changes.size_le changes), givesRest⟩
  | enter h =>
    obtain ⟨-, -, -, changes, -, -, there, isOpen⟩ :=
      (parallel_enter settings _ _ within.1 within.2.2 twin).ok h
    exact ⟨changes, there, isOpen, within.2.1⟩
  | first => exact ⟨.refl, within.1, within.2.1, (Node.everyLiteralIn_cons.mp within.2.2).1⟩
  | next h =>
    obtain ⟨givesFirst, givesRest⟩ := Node.everyLiteralIn_cons.mp within.2.2
    obtain ⟨-, -, -, changes, -⟩ :=
      (parallel_execute (calls _) _ within.1 within.2.1 givesFirst twin).ok h
    exact ⟨changes, within.1.mono (Scopes.Changes.size_le changes), within.2.1, givesRest⟩
  | assigned h => exact ⟨.refl, within.1, (Node.everyLiteral_assignment.mp within.2.2).2⟩
  | write h hvalue =>
    obtain ⟨-, -, -, changes, -⟩ := (parallel_evaluateValue (calls _) _ _ within.1
      (Node.everyLiteral_assignment.mp within.2.2).2 twin).ok hvalue
    exact ⟨changes, within.1.mono (Scopes.Changes.size_le changes)⟩
  | setProperty h hpoint => exact ⟨.refl, trivial⟩
  | condition => exact ⟨.refl, within.1, (Node.everyLiteral_choice.mp within.2.2).1⟩
  | @chosen d s node thenBlock elseBlock m v m₁ truth m' hvalue htruth hemit =>
    obtain ⟨givesCondition, givesThen, givesElse⟩ := Node.everyLiteral_choice.mp within.2.2
    obtain ⟨_, _, -, changes, twin₁, -⟩ :=
      (parallel_evaluateValue (calls _) _ _ within.1 givesCondition twin).ok hvalue
    obtain ⟨-, -, -, changes', -⟩ :=
      (parallel_emit twin₁ settings (.decided truth) (.decided truth)).ok hemit
    have changes := changes.trans changes'
    refine ⟨changes, within.1.mono (Scopes.Changes.size_le changes), ?_⟩
    split
    · exact givesThen
    · exact givesElse
  | inner h =>
    obtain ⟨-, -, -, changes, -, -, there, isOpen⟩ := (parallel_newScope twin within.1).ok h
    exact ⟨changes, there, isOpen, within.2⟩

/-! ## Growth in single computations -/

/-- The computation lets scopes grow, whatever state it starts from and however it ends. -/
def Growing (x : Eval α) : Prop := ∀ m : Machine, m.scopes.Grows (x.leaves m).scopes

/-- After its first part is over, a sequence lets scopes grow if its second part does. -/
theorem grows_rest {x : Eval α} {f : α → Eval β} (rest : ∀ a, Growing (f a)) (m : Machine) :
    (x.leaves m).scopes.Grows ((x >>= f).leaves m).scopes := by
  cases h : x m with
  | ok a m₁ =>
    rw [leaves_of_ok h, leaves_bind_of_ok h]
    exact rest a m₁
  | error error m₁ =>
    rw [leaves_of_error h, leaves_bind_of_error h]
    exact .refl _

theorem Growing.bind {x : Eval α} {f : α → Eval β} (hx : Growing x) (hf : ∀ a, Growing (f a)) :
    Growing (x >>= f) := fun m => (hx m).trans (grows_rest hf m)

/-- Where nothing but the log changes, scopes need not grow. -/
theorem Quiet.growing {x : Eval α} (quiet : Quiet x) : Growing x := by
  intro m
  rw [(quiet.leaves m).scopes]
  exact .refl m.scopes

theorem growing_updateScopes {problem? : Scopes → Option Error} {change : Scopes → Scopes}
    (grows : ∀ scopes, problem? scopes = none → scopes.Grows (change scopes)) :
    Growing (updateScopes problem? change) := by
  intro m
  rw [leaves, updateScopes_apply]
  cases h : problem? m.scopes with
  | some error => exact .refl m.scopes
  | none => exact grows m.scopes h

theorem growing_declare (scope : ScopeId) (name : Name) (value : Value) (isConst : Bool) :
    Growing (declare scope name value isConst) :=
  growing_updateScopes fun _ _ => Scopes.grows_bind value isConst

theorem growing_assign (scope : ScopeId) (name : Name) (value : Value) :
    Growing (assign scope name value) :=
  growing_updateScopes fun _ assignable => Scopes.grows_store value assignable

end Eval

/-- All tasks work on scopes and values that are somewhere. -/
theorem Task.within_everywhere (task : Task) (scopes : Scopes) :
    task.Within (.everywhere fun _ => True) scopes := by
  have here : ∀ id, (Territory.everywhere fun _ => True).Holds scopes id :=
    Territory.holds_everywhere scopes
  cases task with
  | evaluate d s node | branch d s node => exact ⟨here s, Territory.givesTree_everywhere node⟩
  | arguments d s name index nodes => exact ⟨here s, Territory.givesTrees_everywhere nodes⟩
  | call d home name code values =>
    exact ⟨here home, Territory.givesTree_everywhere code.body, fun _ _ _ _ => here _⟩
  | execute d s node | body d s node =>
    exact ⟨here s, trivial, Territory.givesTree_everywhere node⟩
  | all d s nodes => exact ⟨here s, trivial, Territory.givesTrees_everywhere nodes⟩
  | write s name property rest v => exact here s
  | setProperty => trivial

namespace Eval

variable {α : Type} {settings : Settings} {m m' : Machine} {task task' : Task}

/-- A task lets scopes grow. -/
theorem grows_leaves (settings : Settings) (task : Task) (m : Machine) :
    m.scopes.Grows (task.leaves settings m).scopes :=
  (changes_leaves settings (Territory.settled_everywhere fun _ _ => trivial)
    (task.within_everywhere m.scopes)).grows

theorem growing_evaluate (settings : Settings) (d : Nat) (s : ScopeId) (node : Node) :
    Growing (evaluate settings (callAt settings d) s node) :=
  grows_leaves settings (.evaluate d s node)

theorem growing_evaluateValue (settings : Settings) (d : Nat) (s : ScopeId) (description : String)
    (node : Node) : Growing (evaluateValue settings (callAt settings d) s description node) :=
  (growing_evaluate settings d s node).bind fun _ => (quiet_demand _ _).growing

/-! ## What is left to do -/

/-- A name that stands for a function is applied by evaluating the arguments and calling it. -/
theorem applyFunction_eq {call : Caller} {s home : ScopeId} {name declared : Name} {count : Nat}
    (h : Applicable m s name count home declared) (arguments : Eval (List Value)) :
    applyFunction call s name (some count) arguments m =
      (arguments >>= call home declared (m.scopes.code home declared)) m := by
  obtain ⟨found, params, hparams, hcount⟩ := h
  have look : lookup s name m = .ok (.function home declared) m := by rw [lookup_apply, found]
  rw [applyFunction, bind_of_ok look]
  dsimp only
  rw [get_bind_apply, hparams]
  dsimp only
  rw [if_pos hcount]

/-- A path that starts at a handle is followed, and what it leads to is converted; nothing changes
but the log. -/
theorem evaluate_path (settings : Settings) (call : Caller) {s : ScopeId} {word : String}
    {words : List String} (some_ : words ≠ []) {target : Value} {copy : Copy} {m : Machine}
    (bound : m.scopes.lookup s (.text word) = .ok (.handle target copy)) :
    ∃ log, evaluate settings call s (.identifier (.text word) (.ofWords words)) m =
      match settings.follow m.objects (.text word) target (words.map .text) >>= Value.ofHost with
      | .ok result => .ok result { m with log := log }
      | .error error => .error error { m with log := log } := by
  have found : handleTarget s (.text word) m = .ok target m := by
    rw [handleTarget, bind_apply, lookup_apply, bound]
    rfl
  have items : (Datum.ofWords words).items? = some (words.map .text) := rfl
  have path : Node.path? (.text word) (.ofWords words) = some (Node.path word words) := by
    simp [Node.path?]
  rw [evaluate, Datum.isVoid_ofWords some_, if_neg Bool.false_ne_true, readPath, bind_of_ok found,
    items]
  dsimp only
  rw [get_bind_apply, path]
  cases settings.follow m.objects (.text word) target (words.map .text) with
  | error error => exact ⟨m.log, rfl⟩
  | ok value =>
    obtain ⟨log, hlog⟩ := emit_apply settings (.propertyRead (Node.path word words)) m
    refine ⟨log, ?_⟩
    change (emit settings _ >>= fun _ => ofExcept value.ofHost) m = _
    rw [bind_of_ok hlog, ok_bind]
    cases value.ofHost <;> rfl

theorem evaluate_unary (settings : Settings) (call : Caller) (s : ScopeId) (op : UnaryOp)
    (node : Node) :
    evaluate settings call s (.unary op node) = (do
      let value ← evaluateValue settings call s ("operand of '" ++ op.spelling ++ "'") node
      ofExcept (op.apply settings.context value)) := by
  simp only [evaluate, evaluateValue, bind_assoc]

/-- Both operands are evaluated, one after the other. -/
theorem evaluate_binary (settings : Settings) (call : Caller) (s : ScopeId) (op : BinaryOp)
    (a b : Node) :
    evaluate settings call s (.binary op a b) = (do
      let x ← evaluateValue settings call s ("left operand of '" ++ op.spelling ++ "'") a
      let y ← evaluateValue settings call s ("right operand of '" ++ op.spelling ++ "'") b
      ofExcept (op.apply settings.context (settings.host (← get)) x y)) := by
  simp only [evaluate, evaluateValue, bind_assoc]

/-- Arguments are evaluated one after the other. -/
theorem evaluateArguments_cons (settings : Settings) (call : Caller) (s : ScopeId) (name : Name)
    (index : Nat) (node : Node) (rest : List Node) :
    evaluateArguments settings call s name index (node :: rest) = (do
      let value ← evaluateValue settings call s
        ("argument " ++ toString index ++ " of '" ++ name.asText ++ "'") node
      let values ← evaluateArguments settings call s name (index + 1) rest
      pure (value :: values)) := by
  simp only [evaluateArguments, evaluateValue, bind_assoc]

/-- An assignment to words is one along the route that they make. -/
theorem execute_assignment {name : Name} {properties : Datum} {word : String} {words : List String}
    (h : Node.route? name properties = some (word, words)) (settings : Settings) (call : Caller)
    (s : ScopeId) (value : Node) :
    execute settings call s (.assignment (.identifier name properties) value) =
      executeRoute settings call s word words value := by
  rw [execute, executeAssignment, h]

theorem growing_assignPath (settings : Settings) (s : ScopeId) (name property : String)
    (rest : List String) (value : Value) :
    Growing (assignPath settings s name property rest value) :=
  grows_leaves settings (.write s name property rest value)

theorem growing_executeBranch (settings : Settings) (d : Nat) (s : ScopeId) (node : Node) :
    Growing (executeBranch settings (callAt settings d) s node) :=
  grows_leaves settings (.branch d s node)

/-- After the value of an expression is known, a sequence lets scopes grow if the rest of it does.
-/
theorem grows_afterValue {d : Nat} {s : ScopeId} {description : String} {node : Node}
    {f : Value → Eval α} (rest : ∀ value, Growing (f value)) (m : Machine) :
    ((evaluate settings (callAt settings d) s node).leaves m).scopes.Grows
      ((evaluateValue settings (callAt settings d) s description node >>= f).leaves m).scopes :=
  (grows_rest (fun _ => (quiet_demand _ _).growing) m).trans (grows_rest rest m)

/-- After a task that was started for another one is over, scopes grow. -/
theorem Starts.grows_leaves (start : Starts settings task m task' m') :
    (task'.leaves settings m').scopes.Grows (task.leaves settings m).scopes := by
  cases start with
  | operand =>
    simp only [Task.leaves, evaluate]
    exact grows_rest (fun _ => ((quiet_demand _ _).bind fun _ => quiet_ofExcept _).growing) m
  | left =>
    rw [Task.leaves, Task.leaves, evaluate_binary]
    refine grows_afterValue (fun _ => ?_) m
    exact (growing_evaluateValue settings _ _ _ _).bind fun _ _ => (quiet_ofExcept _).growing _
  | right h =>
    rw [Task.leaves, Task.leaves, evaluate_binary, leaves_bind_of_ok h]
    refine grows_afterValue (fun _ => ?_) m'
    exact fun _ => (quiet_ofExcept _).growing _
  | @arguments d s name nodes m home declared h =>
    rw [Task.leaves, Task.leaves, leaves, leaves, evaluate, applyFunction_eq h]
    exact grows_rest (fun values => Eval.grows_leaves settings (.call d home declared _ values)) m
  | call h hargs =>
    simp only [Task.leaves, leaves, evaluate, applyFunction_eq h, bind_of_ok hargs]
    exact .refl _
  | callData hnone h =>
    simp only [Task.leaves, leaves, evaluate, evaluateData, hnone, Option.map_some, List.length_nil,
      applyFunction_eq h]
    exact .refl _
  | @argument d s name index node rest m =>
    rw [Task.leaves, Task.leaves, evaluateArguments_cons]
    refine grows_afterValue (fun _ => ?_) m
    exact Growing.bind (Eval.grows_leaves settings (.arguments d s name (index + 1) rest))
      fun _ => (quiet_pure _).growing
  | moreArguments h =>
    rw [Task.leaves, Task.leaves, evaluateArguments_cons, leaves_bind_of_ok h]
    exact grows_rest (fun _ => (quiet_pure _).growing) m'
  | enter h =>
    rw [Task.leaves, Task.leaves, callAt_succ, leaves_bind_of_ok h]
    exact grows_rest (fun _ => (quiet_pure _).growing) m'
  | body | statements => exact .refl _
  | @first d s node rest m =>
    simp only [Task.leaves, executeAll]
    refine grows_rest (fun completion => ?_) m
    cases completion with
    | normal => exact Eval.grows_leaves settings (.all d s rest)
    | returned value => exact (quiet_pure _).growing
  | next h =>
    rw [Task.leaves, Task.leaves, executeAll, leaves_bind_of_ok h]
    exact .refl _
  | initial =>
    rw [Task.leaves, Task.leaves, execute, executeDeclaration]
    refine grows_afterValue (fun _ => ?_) m
    exact (growing_declare _ _ _ _).bind fun _ =>
      ((quiet_emit _ _).bind fun _ => quiet_pure _).growing
  | @assigned d s name properties word words node m h =>
    rw [Task.leaves, Task.leaves, execute_assignment h, executeRoute]
    refine grows_afterValue (fun _ => ?_) m
    cases words with
    | nil =>
      exact (growing_assign _ _ _).bind fun _ =>
        ((quiet_emit _ _).bind fun _ => quiet_pure _).growing
    | cons property rest =>
      exact (growing_assignPath _ _ _ _ _ _).bind fun _ =>
        ((quiet_emit _ _).bind fun _ => quiet_pure _).growing
  | write h hvalue =>
    rw [Task.leaves, Task.leaves, execute_assignment h, executeRoute, leaves_bind_of_ok hvalue]
    exact grows_rest (fun _ => ((quiet_emit _ _).bind fun _ => quiet_pure _).growing) m'
  | setProperty h hpoint =>
    rw [Task.scopes_setProperty]
    exact growing_assignPath _ _ _ _ _ _ m
  | returned h =>
    rw [Task.leaves, Task.leaves, execute_giveBack h]
    exact grows_afterValue (fun _ => (quiet_pure _).growing) m
  | called =>
    simp only [Task.leaves, execute]
    exact grows_rest (fun _ => (quiet_pure _).growing) m
  | condition =>
    rw [Task.leaves, Task.leaves, execute]
    refine grows_afterValue (fun _ => ?_) m
    refine (quiet_ofExcept _).growing.bind fun truth => (quiet_emit _ _).growing.bind fun _ => ?_
    split <;> exact growing_executeBranch settings _ _ _
  | chosen hvalue htruth hemit =>
    rw [Task.leaves, Task.leaves, execute, leaves_bind_of_ok hvalue, htruth]
    simp only [ofExcept, pure_bind]
    rw [leaves_bind_of_ok hemit]
    split <;> exact .refl _
  | inner h =>
    rw [Task.leaves, Task.leaves, executeBranch, leaves_bind_of_ok h]
    exact .refl _

/-! ## Moments -/

theorem Moment.changes {T : Territory} {m₁ : Machine} (h : Moment settings task m m₁)
    (settled : T.Settled m.scopes) (within : task.Within T m.scopes) :
    Scopes.Changes T m.scopes m₁.scopes := by
  induction h with
  | start => exact .refl
  | finish => exact changes_leaves settings settled within
  | inside start _ ih =>
    obtain ⟨changes, within'⟩ := start.within settled within
    exact changes.trans (ih (Scopes.Changes.settled changes settled) within')

theorem Moment.grows {m₁ : Machine} (h : Moment settings task m m₁) : m.scopes.Grows m₁.scopes :=
  (h.changes (Territory.settled_everywhere fun _ _ => trivial)
    (task.within_everywhere m.scopes)).grows

theorem Moment.grows_leaves {m₁ : Machine} (h : Moment settings task m m₁) :
    m₁.scopes.Grows (task.leaves settings m).scopes := by
  induction h with
  | start => exact Eval.grows_leaves settings _ _
  | finish => exact .refl _
  | inside start _ ih => exact ih.trans start.grows_leaves

/-- From each moment to every later one, scopes grow. -/
theorem Precedes.grows {m₁ m₂ : Machine} (h : Precedes settings task m m₁ m₂) :
    m₁.scopes.Grows m₂.scopes := by
  induction h with
  | start h => exact h.grows
  | finish h => exact h.grows_leaves
  | inside _ _ ih => exact ih
  | across start start' after h h' =>
    have ended := h.grows_leaves
    rw [← after] at ended
    exact ended.trans h'.grows

/-! ## Declared values -/

end Eval

/-! ## Main statement -/

end ScopeScript
