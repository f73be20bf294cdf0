import ScopeScript.Proofs.Eval.HostWrites
import ScopeScript.Proofs.Eval.Moments
import ScopeScript.Proofs.Eval.ScriptValues
import ScopeScript.Proofs.Scope.Resolution
set_option autoImplicit false

/-!
# Eval: expressions without calls

Only calls run statements, so an expression without one changes nothing but the log, whether it has
a value or fails.  What a declaration or an assignment does with the value of such an expression is
its only effect, and it comes last: if the statement fails, nothing has changed.
-/

namespace ScopeScript

/-- Whether no call is evaluated as a part of an expression.  Data in the place of an expression may
be a call too; statements in such a place are not executed. -/
def Node.isCallFree : Node → Bool
  | .call _ _ => false
  | .unary _ operand => operand.isCallFree
  | .binary _ left right => left.isCallFree && right.isCallFree
  | .data (.record .call _) => false
  | _ => true

namespace Machine

/-- One binding of one scope is set, and nothing else changes but the log. -/
structure SetsBinding (m : Machine) (scope : ScopeId) (name : Name) (binding : Binding)
    (m' : Machine) : Prop where
  rebinds : m.scopes.Rebinds scope name binding m'.scopes
  size : m'.scopes.cells.size = m.scopes.cells.size
  functions : ∀ id, (m'.scopes.get id).functions = (m.scopes.get id).functions
  objects : m'.objects = m.objects
  handles : m'.handles = m.handles

/-- What was logged before and after does not count. -/
theorem SetsBinding.of_logs {m m₁ m₂ m' : Machine} {scope : ScopeId} {name : Name}
    {binding : Binding} (before : m.Logs m₁) (sets : m₁.SetsBinding scope name binding m₂)
    (behind : m₂.Logs m') : m.SetsBinding scope name binding m' := by
  obtain ⟨rebinds, size, functions, objects, handles⟩ := sets
  rw [before.scopes] at rebinds size functions
  rw [before.objects] at objects
  rw [before.handles] at handles
  refine ⟨?_, ?_, ?_, behind.objects.trans objects, behind.handles.trans handles⟩
  · rw [behind.scopes]
    exact rebinds
  · rw [behind.scopes]
    exact size
  · rw [behind.scopes]
    exact functions

end Machine

/-- The one slot that the properties `names` of `target` lead to holds what a value becomes there,
and nothing else changes but the log. -/
structure Settings.SetsSlot (settings : Settings) (owner : String) (target : Value)
    (names : List String) (value : Value) (m m' : Machine) : Prop where
  scopes : m'.scopes = m.scopes
  handles : m'.handles = m.handles
  slot : ∃ leading last id cls stored, names = leading ++ [last] ∧
    settings.follow m.objects (.text owner) target (leading.map .text) = .ok (.object id cls) ∧
    value.coerce settings.classes
      ((settings.registry.adapterFor settings.classes (.object id cls)).slotType? settings.classes
        m.objects (.object id cls) last) = .ok (some stored) ∧
    m.objects.WrittenAt settings.classes id last stored m'.objects ∧
    settings.readProperty m'.objects (.text owner) (.object id cls) (.text last) = .ok stored

/-- A value is given to what a name and properties lead to: a variable, if there are no properties,
and the slot of a host object otherwise. -/
def Settings.Puts (settings : Settings) (scope : ScopeId) (name : String) (value : Value)
    (m m' : Machine) : List String → Prop
  | [] => ∃ target binding, m.scopes.Nearest scope (.text name) target ∧
      m.scopes.binding? target (.text name) = some binding ∧ binding.isConst = false ∧
      m.SetsBinding target (.text name) { binding with value := value } m'
  | property :: rest => ∃ target copy,
      m.scopes.lookup scope (.text name) = .ok (.handle target copy) ∧
      settings.SetsSlot name target (property :: rest) value m m'

theorem Settings.Puts.of_logs {settings : Settings} {scope : ScopeId} {name : String}
    {value : Value} {m m₁ m₂ m' : Machine} {properties : List String}
    (puts : settings.Puts scope name value m₁ m₂ properties) (before : m.Logs m₁)
    (behind : m₂.Logs m') : settings.Puts scope name value m m' properties := by
  cases properties with
  | nil =>
    obtain ⟨target, binding, nearest, found, variable_, sets⟩ := puts
    rw [before.scopes] at nearest found
    exact ⟨target, binding, nearest, found, variable_, .of_logs before sets behind⟩
  | cons property rest =>
    obtain ⟨target, copy, bound, scopes, handles, slot⟩ := puts
    rw [before.scopes] at bound scopes
    rw [before.handles] at handles
    rw [before.objects] at slot
    refine ⟨target, copy, bound, behind.scopes.trans scopes, behind.handles.trans handles, ?_⟩
    rw [behind.objects]
    exact slot

namespace Eval

variable {α : Type} {settings : Settings} {call : Caller} {scope : ScopeId} {m m' : Machine}

/-! ## Expressions -/

theorem quiet_handleTarget (scope : ScopeId) (name : Name) : Quiet (handleTarget scope name) := by
  refine (quiet_lookup scope name).bind fun bound => ?_
  cases bound with
  | handle target copy => exact quiet_pure target
  | _ => exact quiet_throw _

theorem quiet_readPath (settings : Settings) (scope : ScopeId) (name : Name)
    (properties : Datum) : Quiet (readPath settings scope name properties) := by
  refine (quiet_handleTarget scope name).bind fun target => ?_
  cases properties.items? with
  | none => exact quiet_throw _
  | some items =>
    refine .get fun m => (quiet_ofExcept _).bind fun value => ?_
    exact (quiet_emit? settings _ _).bind fun _ => quiet_ofExcept _

theorem quiet_evaluateData {datum : Datum} (free : (Node.data datum).isCallFree = true) :
    Quiet (evaluateData call scope datum) := by
  unfold evaluateData
  split
  · cases free
  · exact quiet_throw _

/-- Only calls change anything. -/
theorem quiet_evaluate (settings : Settings) (call : Caller) (scope : ScopeId) :
    ∀ node : Node, node.isCallFree = true → Quiet (evaluate settings call scope node)
  | .literal value, _ => quiet_pure value
  | .identifier name properties, _ => by
    rw [evaluate]
    split
    · exact quiet_lookup scope name
    · exact quiet_readPath settings scope name properties
  | .unary op operand, free => by
    have value := quiet_evaluate settings call scope operand free
    exact value.bind fun _ => (quiet_demand _ _).bind fun _ => quiet_ofExcept _
  | .binary op left right, free => by
    rw [Node.isCallFree, Bool.and_eq_true] at free
    have a := quiet_evaluate settings call scope left free.1
    have b := quiet_evaluate settings call scope right free.2
    refine a.bind fun _ => (quiet_demand _ _).bind fun _ => ?_
    exact b.bind fun _ => (quiet_demand _ _).bind fun _ => .get fun m => quiet_ofExcept _
  | .data datum, free => by
    rw [evaluate]
    exact quiet_evaluateData free
  | .block _, _ | .declaration _ _ _, _ | .assignment _ _, _ | .function _ _ _, _
  | .giveBack _, _ | .callStatement _, _ | .choice _ _ _, _ | .absent, _ | .bare _, _ => by
    rw [evaluate] <;> first | exact quiet_throw _ | simp

/-! ### No sentinels -/

theorem demand_eq_ok {description : String} {value result : Value}
    (h : demand description value m = .ok result m') :
    result = value ∧ m' = m ∧ value.isSentinel = false := by
  unfold demand at h
  cases sentinel : value.isSentinel with
  | true =>
    rw [sentinel, if_pos rfl] at h
    cases h
  | false =>
    rw [sentinel, if_neg Bool.false_ne_true] at h
    cases h
    exact ⟨rfl, rfl, rfl⟩

theorem ofExcept_eq_ok {result : Except Error α} {a : α} (h : ofExcept result m = .ok a m') :
    result = .ok a := by
  cases result with
  | ok b =>
    cases h
    rfl
  | error error => cases h

theorem evaluateValue_eq_ok {description : String} {node : Node} {value : Value}
    (h : evaluateValue settings call scope description node m = .ok value m') :
    evaluate settings call scope node m = .ok value m' ∧ value.isSentinel = false := by
  obtain ⟨result, m₁, evaluated, demanded⟩ := bind_eq_ok.mp h
  obtain ⟨rfl, rfl, noSentinel⟩ := demand_eq_ok demanded
  exact ⟨evaluated, noSentinel⟩

theorem not_isSentinel_of_isComputed {value : Value} (computed : value.isComputed = true) :
    value.isSentinel = false := by
  cases value with
  | boolean | number => rfl
  | _ => cases computed

theorem not_isSentinel_of_isPlain {value : Value} (plain : value.isPlain = true) :
    value.isSentinel = false := by
  cases value with
  | boolean | number | text => rfl
  | _ => cases plain

/-- What is read of a property is a value. -/
theorem not_isSentinel_readPath {name : Name} {properties : Datum} {value : Value}
    (h : readPath settings scope name properties m = .ok value m') : value.isSentinel = false := by
  obtain ⟨target, m₁, -, h⟩ := bind_eq_ok.mp h
  cases items : properties.items? with
  | none =>
    rw [items] at h
    cases h
  | some names =>
    rw [items] at h
    obtain ⟨_, _, -, h⟩ := bind_eq_ok.mp h
    obtain ⟨stored, _, -, h⟩ := bind_eq_ok.mp h
    obtain ⟨_, _, -, h⟩ := bind_eq_ok.mp h
    exact not_isSentinel_of_isPlain (Value.isPlain_ofHost (ofExcept_eq_ok h))

/-- Sentinels are given back by calls alone, where none is bound and none stands in the tree. -/
theorem not_isSentinel_evaluate (bound : ∀ value, m.Binds value → value.isSentinel = false)
    {node : Node} (free : node.isCallFree = true) (literal : ∀ s, node ≠ .literal (.sentinel s))
    {value : Value} (h : evaluate settings call scope node m = .ok value m') :
    value.isSentinel = false := by
  cases node with
  | literal value =>
    cases h
    cases value with
    | sentinel s => exact absurd rfl (literal s)
    | _ => rfl
  | identifier name properties =>
    rw [evaluate] at h
    split at h
    · have holding : m.scopes.Holding (·.isSentinel = false) fun _ => True :=
        ⟨fun id entry hentry => bound _ ⟨id, entry, hentry, rfl⟩, fun _ _ _ => trivial⟩
      rw [lookup_apply] at h
      cases found : m.scopes.lookup scope name with
      | ok result =>
        rw [found] at h
        cases h
        exact holding.lookup found
      | error error =>
        rw [found] at h
        cases h
    · exact not_isSentinel_readPath h
  | call => cases free
  | unary op operand =>
    rw [evaluate_unary] at h
    obtain ⟨x, m₁, -, h⟩ := bind_eq_ok.mp h
    exact not_isSentinel_of_isComputed (UnaryOp.isComputed_apply (ofExcept_eq_ok h))
  | binary op left right =>
    rw [evaluate_binary] at h
    obtain ⟨x, m₁, hx, h⟩ := bind_eq_ok.mp h
    obtain ⟨y, m₂, hy, h⟩ := bind_eq_ok.mp h
    rcases BinaryOp.apply_result (ofExcept_eq_ok h) with rfl | rfl | computed
    · exact (evaluateValue_eq_ok hx).2
    · exact (evaluateValue_eq_ok hy).2
    · exact not_isSentinel_of_isComputed computed
  | data datum =>
    rw [evaluate] at h
    unfold evaluateData at h
    split at h
    · cases free
    · cases h
  | _ => rw [evaluate] at h <;> cases h

/-! ## Statements -/

/-- Declaring a name binds it, or fails and changes nothing. -/
theorem ensures_declare (exist : scope < m.scopes.cells.size) (name : Name) (value : Value)
    (isConst : Bool) :
    Ensures (declare scope name value isConst) m
      (fun _ m' => m.SetsBinding scope name ⟨name, value, isConst⟩ m') fun _ m' => m' = m := by
  rw [Ensures, declare, updateScopes_apply]
  by_cases bound : m.scopes.Binds scope name
  · rw [declareProblem?_of_binds bound]
  · rw [declareProblem?_of_free bound]
    refine ⟨Scopes.rebinds_bind exist bound value isConst, Scopes.size_bind .., ?_, rfl, rfl⟩
    intro id
    change ((m.scopes.bind scope name value isConst).get id).functions = _
    rw [Scopes.bind, Scopes.get_modify]
    split <;> rfl

/-- Assigning to a variable sets the binding that the name means, or fails and changes nothing. -/
theorem ensures_assign (settings : Settings) (scope : ScopeId) (name : String) (value : Value)
    (m : Machine) :
    Ensures (assign scope (.text name) value) m
      (fun _ m' => settings.Puts scope name value m m' []) fun _ m' => m' = m := by
  by_cases some_scope : ∃ target, m.scopes.Nearest scope (.text name) target
  case neg => rw [Ensures, assign_of_unbound (not_exists.mp some_scope)]
  case pos =>
    obtain ⟨target, nearest⟩ := some_scope
    obtain ⟨binding, found⟩ := nearest.exists_binding
    rw [Ensures, assign_of_nearest nearest found]
    cases isConst : binding.isConst with
    | true => rfl
    | false =>
      refine ⟨target, binding, nearest, found, isConst, ?_⟩
      refine ⟨Scopes.rebinds_store nearest found value, Scopes.size_store .., ?_, rfl, rfl⟩
      intro id
      change ((m.scopes.store scope (.text name) value).get id).functions = _
      rw [Scopes.store, Scopes.resolve?_eq_some_iff.mpr nearest]
      dsimp only
      rw [Scopes.get_modify]
      split <;> rfl

/-- Writing a property sets the slot that the path leads to, or fails and changes nothing. -/
theorem ensures_assignPath (builtIn : settings.BuiltIn) (scope : ScopeId) (name property : String)
    (rest : List String) (value : Value) (m : Machine) :
    Ensures (assignPath settings scope name property rest value) m
      (fun _ m' => settings.Puts scope name value m m' (property :: rest)) fun _ m' => m' = m := by
  rcases assignPath_eq settings scope name property rest value m with
    ⟨target, copy, m', bound, ends, written, scopes, handles⟩ | ⟨error, fails⟩
  · rw [Ensures, ends]
    exact ⟨target, copy, bound, scopes, handles, Settings.writePath_stored builtIn written⟩
  · rw [Ensures, fails]

/-- Behind an expression without calls, what is done with its value happens in a state that differs
in its log at most. -/
theorem ensures_afterValue {Q : α → Machine → Prop} {description : String} {node : Node}
    {f : Value → Eval α} (free : node.isCallFree = true)
    (rest : ∀ value m₁, evaluate settings call scope node m = .ok value m₁ →
      value.isSentinel = false → m.Logs m₁ → Ensures (f value) m₁ Q fun _ m' => m.Logs m') :
    Ensures (evaluateValue settings call scope description node >>= f) m Q
      fun _ m' => m.Logs m' := by
  have quiet : Quiet (evaluateValue settings call scope description node) :=
    (quiet_evaluate settings call scope node free).bind fun _ => quiet_demand _ _
  refine Ensures.bind (Q := fun value m₁ =>
    evaluate settings call scope node m = .ok value m₁ ∧ value.isSentinel = false ∧ m.Logs m₁)
    ?_ fun value m₁ h => rest value m₁ h.1 h.2.1 h.2.2
  rw [ensures_iff]
  constructor
  · intro value m₁ evaluated
    exact ⟨(evaluateValue_eq_ok evaluated).1, (evaluateValue_eq_ok evaluated).2,
      quiet.logs evaluated⟩
  · intro error m₁ failed
    exact (quiet m).error failed

/-- Logging never fails, so what follows is all that counts. -/
theorem ensures_afterEmit {event : Event} {Q : α → Machine → Prop} {E : Error → Machine → Prop}
    {x : Eval α} (rest : ∀ m₁, m.Logs m₁ → Ensures x m₁ Q E) :
    Ensures (emit settings event >>= fun _ => x) m Q E := by
  obtain ⟨log, logged⟩ := emit_apply settings event m
  rw [Ensures, bind_of_ok logged]
  exact rest _ ⟨rfl, rfl, rfl⟩

theorem ensures_executeDeclaration {node : Node} (free : node.isCallFree = true)
    (exist : scope < m.scopes.cells.size) (isConst : Bool) (name : Name) :
    Ensures (execute settings call scope (.declaration isConst name node)) m
      (fun completion m' => completion = .normal ∧ ∃ value m₁,
        evaluate settings call scope node m = .ok value m₁ ∧ value.isSentinel = false ∧
          m.SetsBinding scope name ⟨name, value, isConst⟩ m')
      fun _ m' => m.Logs m' := by
  rw [execute]
  refine ensures_afterValue free fun value m₁ evaluated noSentinel before => ?_
  have exist₁ : scope < m₁.scopes.cells.size := by rwa [before.scopes]
  have declares := (ensures_declare exist₁ name value isConst).mono (fun _ _ sets => sets)
    fun _ _ (same : _ = m₁) => same.symm ▸ before
  refine declares.bind fun _ m₂ sets => ensures_afterEmit fun m₃ behind => ?_
  exact ⟨rfl, value, m₁, evaluated, noSentinel, .of_logs before sets behind⟩

/-- Along a route, a value is put where the route leads. -/
theorem ensures_executeRoute {node : Node} (builtIn : settings.BuiltIn)
    (free : node.isCallFree = true) (name : String) (properties : List String) :
    Ensures (executeRoute settings call scope name properties node) m
      (fun completion m' => completion = .normal ∧ ∃ value m₁,
        evaluate settings call scope node m = .ok value m₁ ∧ value.isSentinel = false ∧
          settings.Puts scope name value m m' properties)
      fun _ m' => m.Logs m' := by
  refine ensures_afterValue free fun value m₁ evaluated noSentinel before => ?_
  have logged : ∀ {x : Eval Unit}, Ensures x m₁
      (fun _ m₂ => settings.Puts scope name value m₁ m₂ properties) (fun _ m₂ => m₂ = m₁) →
      Ensures (x >>= fun _ => emit settings (.assigned (Node.path name properties) value) >>=
          fun _ => pure Completion.normal) m₁
        (fun completion m' => completion = .normal ∧ ∃ value m₁,
          evaluate settings call scope node m = .ok value m₁ ∧ value.isSentinel = false ∧
            settings.Puts scope name value m m' properties)
        fun _ m' => m.Logs m' := by
    intro x puts
    have puts' := puts.mono (fun _ _ put => put) fun _ _ (same : _ = m₁) => same.symm ▸ before
    refine puts'.bind fun _ m₂ put => ensures_afterEmit fun m₃ behind => ?_
    exact ⟨rfl, value, m₁, evaluated, noSentinel, put.of_logs before behind⟩
  cases properties with
  | nil => exact logged (ensures_assign settings scope name value m₁)
  | cons property rest =>
    exact logged (ensures_assignPath builtIn scope name property rest value m₁)

end Eval

/-- Without calls, evaluating an expression changes nothing but the log, whether it has a value or
fails; and if no sentinel is bound and the expression is none itself, it never gives one.

So declarations and assignments of such expressions are atomic.  Where one fails, nothing has
changed but the log.  Where it succeeds, nothing else has changed but the one binding that is
declared or assigned, or the one slot that is written, which holds the value of the expression, as
the annotation of the slot has it. -/
theorem call_free_statements_are_atomic (settings : Settings) (call : Caller) (scope : ScopeId)
    (e : Node) (m : Machine) (free : e.isCallFree = true) :
    Eval.Ensures (Eval.evaluate settings call scope e) m
      (fun value m' => m.Logs m' ∧
        ((∀ bound, m.Binds bound → bound.isSentinel = false) →
          (∀ s, e ≠ .literal (.sentinel s)) → value.isSentinel = false))
      (fun _ m' => m.Logs m') ∧
    (scope < m.scopes.cells.size → ∀ isConst name,
      Eval.Ensures (Eval.execute settings call scope (.declaration isConst name e)) m
        (fun completion m' => completion = .normal ∧ ∃ value m₁,
          Eval.evaluate settings call scope e m = .ok value m₁ ∧ value.isSentinel = false ∧
            m.SetsBinding scope name ⟨name, value, isConst⟩ m')
        (fun _ m' => m.Logs m')) ∧
    (settings.BuiltIn → ∀ target,
      Eval.Ensures (Eval.execute settings call scope (.assignment target e)) m
        (fun completion m' => completion = .normal ∧ ∃ name properties word words,
          target = .identifier name properties ∧
            Node.route? name properties = some (word, words) ∧ ∃ value m₁,
            Eval.evaluate settings call scope e m = .ok value m₁ ∧ value.isSentinel = false ∧
              settings.Puts scope word value m m' words)
        (fun _ m' => m.Logs m')) := by
  refine ⟨?_, fun exist isConst name => Eval.ensures_executeDeclaration free exist isConst name, ?_⟩
  · have quiet := Eval.quiet_evaluate settings call scope e free
    rw [Eval.ensures_iff]
    refine ⟨fun value m' evaluated => ⟨quiet.logs evaluated, fun bound literal => ?_⟩,
      fun error m' failed => (quiet m).error failed⟩
    exact Eval.not_isSentinel_evaluate bound free literal evaluated
  · intro builtIn target
    cases target with
    | identifier name properties =>
      cases route : Node.route? name properties with
      | none =>
        rw [Eval.execute, Eval.executeAssignment, route]
        exact Machine.Logs.refl m
      | some words =>
        obtain ⟨word, words⟩ := words
        rw [Eval.execute_assignment route]
        refine (Eval.ensures_executeRoute builtIn free word words).mono ?_ fun _ _ h => h
        rintro completion m' ⟨normal, put⟩
        exact ⟨normal, name, properties, word, words, rfl, route, put⟩
    | _ =>
      rw [Eval.execute, Eval.executeAssignment]
      · exact Machine.Logs.refl m
      · simp

/-- An entry of the dictionary of the shelf, and a number more. -/
def sizeOfBox : Node :=
  .binary .add (.identifier (.text "shelf") (.ofWords ["box", "size"]))
    (.literal (.number (.finite ⟨false, 1, 0⟩)))

/-- A constant is declared, and the entry is replaced by its successor; that is all that changes. -/
theorem call_free_statements_are_atomic_sizeOfBox :
    (sizeOfBox.isCallFree = true ∧ 0 < ringMachine.scopes.cells.size ∧ ringSettings.BuiltIn) ∧
    (∃ value m', Eval.execute ringSettings (Eval.callAt ringSettings 0) 0
        (.declaration true (.text "size") sizeOfBox) ringMachine = .ok .normal m' ∧
      ringMachine.SetsBinding 0 (.text "size") ⟨.text "size", value, true⟩ m') ∧
    ∃ value m', Eval.execute ringSettings (Eval.callAt ringSettings 0) 0
        (.assignment (.identifier (.text "shelf") (.ofWords ["box", "size"])) sizeOfBox)
        ringMachine = .ok .normal m' ∧
      (m'.objects[1]?).map (·.entries) = some [("place", .object 0 (.user "Shelf")),
        ("size", .number (.finite ⟨false, 2, 0⟩))] ∧
      ringSettings.Puts 0 "shelf" value ringMachine m' ["box", "size"] := by
  have free : sizeOfBox.isCallFree = true := rfl
  have exist : 0 < ringMachine.scopes.cells.size := by decide
  have builtIn : ringSettings.BuiltIn := Settings.builtIn_of_registry (by decide) (by decide)
  obtain ⟨-, declaration, assignment⟩ := call_free_statements_are_atomic ringSettings
    (Eval.callAt ringSettings 0) 0 sizeOfBox ringMachine free
  refine ⟨⟨free, exist, builtIn⟩, ?_, ?_⟩
  · obtain ⟨-, value, -, -, -, sets⟩ := (declaration exist true (.text "size")).ok rfl
    exact ⟨value, _, rfl, sets⟩
  · obtain ⟨-, name, properties, word, words, same, route, value, -, -, -, puts⟩ :=
      (assignment builtIn (.identifier (.text "shelf") (.ofWords ["box", "size"]))).ok rfl
    cases same
    cases route
    exact ⟨value, _, rfl, rfl, puts⟩

end ScopeScript
