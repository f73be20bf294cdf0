import ScopeScript.Proofs.Eval.Conduct
set_option autoImplicit false

/-!
# Eval: runs keep to lawful conducts

What single operations keep to, expressions and statements do, by recursion on the tree and for any
caller that does; calls do by induction on how deep they may be nested.  So whole runs keep to every
lawful conduct, and so does every task that is started during a run.
-/

namespace ScopeScript.Conduct

open Eval

variable {C : Conduct} {m : Machine} {log : Array LogEntry}

/-! ## Expressions -/

/-- Two callers keep to the conduct with code and arguments that do. -/
def Calls (C : Conduct) (call call' : Caller) : Prop :=
  ∀ {m : Machine} {log : Array LogEntry} {home : ScopeId} {name : Name} {code : ScopeScript.Code}
    {arguments : List Value},
    C.State m log → C.Code code → (∀ value ∈ arguments, C.Usable value) →
    C.Abreast (call home name code arguments) (call' home name code arguments) m log C.Given

section Trees

variable {call call' : Caller}

theorem abreast_applyFunction (lawful : C.Lawful) (calls : C.Calls call call') {scope : ScopeId}
    {name : Name} {count? : Option Nat} {arguments arguments' : Eval (List Value)}
    (state : C.State m log) (counted : C.strict → count?.isSome = true)
    (harguments : ∀ {m : Machine} {log : Array LogEntry}, C.State m log →
      C.Abreast arguments arguments' m log (fun values => ∀ value ∈ values, C.Usable value)) :
    C.Abreast (applyFunction call scope name count? arguments)
      (applyFunction call' scope name count? arguments') m log C.Given := by
  refine (abreast_lookup lawful state scope name).bind ?_
  intro value m₁ log₁ state₁ _
  cases value with
  | function home declared =>
    have fine : C.Code (m₁.scopes.code home declared) :=
      state₁.scopes.code code_empty home declared
    refine abreast_get ?_
    dsimp only
    split
    · split
      · refine (harguments state₁).bind ?_
        intro values m₂ log₂ state₂ usable
        exact calls state₂ fine usable
      · exact abreast_throw state₁ (lawful.script _ rfl)
    · rename_i odd
      refine abreast_throw state₁ (lawful.odd (fun strict => ?_) _ rfl)
      -- with well-formed trees there are a count and parameters to count
      obtain ⟨count, hcount⟩ := Option.isSome_iff_exists.mp (counted strict)
      obtain ⟨words, hwords⟩ := fine.params strict
      exact odd count (words.map .text) hcount (by rw [hwords]; rfl)
  | _ => exact abreast_throw state₁ (lawful.script _ rfl)

theorem abreast_evaluateData (lawful : C.Lawful) (calls : C.Calls call call') (lax : ¬ C.strict)
    (state : C.State m log) (scope : ScopeId) (datum : Datum) :
    C.Abreast (evaluateData call scope datum) (evaluateData call' scope datum) m log C.Given := by
  unfold evaluateData
  split
  · refine abreast_applyFunction lawful calls state (fun strict => absurd strict lax) ?_
    intro m' log' state'
    unfold refuseArguments
    split
    · exact abreast_pure state' (by simp)
    · exact abreast_throw state' (lawful.odd lax _ rfl)
  · exact abreast_throw state (lawful.odd lax _ rfl)

mutual

theorem abreast_evaluate (lawful : C.Lawful) (calls : C.Calls call call') (node : Node)
    (fits : C.Expression node) {scope : ScopeId} {m : Machine} {log : Array LogEntry}
    (state : C.State m log) :
    C.Abreast (evaluate C.settings call scope node) (evaluate C.other call' scope node) m log
      C.Given := by
  cases node with
  | literal value =>
    exact abreast_pure state (lawful.literal value (Node.everyLiteral_literal.mp fits.literals))
  | identifier name properties =>
    rw [evaluate, evaluate]
    split
    · exact (abreast_lookup lawful state scope name).mono fun _ fine _ => fine
    · refine (abreast_readPath lawful state scope ?_).mono fun _ fine _ => fine
      exact fun strict => Datum.exists_words (fits.wellFormed strict)
  | call name arguments =>
    rw [evaluate, evaluate]
    refine abreast_applyFunction lawful calls state (fun _ => rfl) ?_
    intro m' log' state'
    exact abreast_evaluateArguments lawful calls arguments fits.arguments name 1 state'
  | unary op operand =>
    rw [evaluate, evaluate]
    refine (abreast_evaluate lawful calls operand fits.operand state).bind ?_
    intro value m₁ log₁ state₁ given
    refine (abreast_demand lawful state₁ _ given).bind ?_
    intro value m₂ log₂ state₂ usable
    exact abreast_yields state₂ (lawful.unary op value fits.operator usable)
  | binary op left right =>
    rw [evaluate, evaluate]
    refine (abreast_evaluate lawful calls left fits.left state).bind ?_
    intro a m₁ log₁ state₁ givenA
    refine (abreast_demand lawful state₁ _ givenA).bind ?_
    intro a m₂ log₂ state₂ usableA
    refine (abreast_evaluate lawful calls right fits.right state₂).bind ?_
    intro b m₃ log₃ state₃ givenB
    refine (abreast_demand lawful state₃ _ givenB).bind ?_
    intro b m₄ log₄ state₄ usableB
    exact abreast_get (abreast_yields state₄
      (lawful.binary _ op a b fits.binaryOperator state₄.objects usableA usableB))
  | data datum =>
    rw [evaluate, evaluate]
    exact abreast_evaluateData lawful calls fits.not_strict state scope datum
  | _ => exact abreast_throw state (lawful.odd fits.not_strict _ rfl)
termination_by structural node

theorem abreast_evaluateArguments (lawful : C.Lawful) (calls : C.Calls call call')
    (nodes : List Node) (fits : C.Expressions nodes)
    {scope : ScopeId} (name : Name) (index : Nat) {m : Machine} {log : Array LogEntry}
    (state : C.State m log) :
    C.Abreast (evaluateArguments C.settings call scope name index nodes)
      (evaluateArguments C.other call' scope name index nodes) m log
      (fun values => ∀ value ∈ values, C.Usable value) := by
  cases nodes with
  | nil => exact abreast_pure state (by simp)
  | cons node rest =>
    rw [evaluateArguments, evaluateArguments]
    refine (abreast_evaluate lawful calls node fits.first state).bind ?_
    intro value m₁ log₁ state₁ given
    refine (abreast_demand lawful state₁ _ given).bind ?_
    intro value m₂ log₂ state₂ usable
    refine (abreast_evaluateArguments lawful calls rest fits.rest name (index + 1) state₂).bind ?_
    intro values m₃ log₃ state₃ usableRest
    refine abreast_pure state₃ ?_
    intro other hother
    rcases List.mem_cons.mp hother with rfl | hother
    · exact usable
    · exact usableRest other hother
termination_by structural nodes

end

theorem abreast_evaluateValue (lawful : C.Lawful) (calls : C.Calls call call') {node : Node}
    (fits : C.Expression node) {scope : ScopeId} (description : String) (state : C.State m log) :
    C.Abreast (evaluateValue C.settings call scope description node)
      (evaluateValue C.other call' scope description node) m log C.Usable := by
  refine (abreast_evaluate lawful calls node fits state).bind ?_
  intro value m₁ log₁ state₁ given
  exact abreast_demand lawful state₁ description given

/-! ## Statements -/

/-- What a statement gives back is used as a value. -/
def Returns (C : Conduct) (completion : Completion) : Prop :=
  ∀ value, completion = .returned (some value) → C.Usable value

theorem returns_normal : C.Returns .normal := by
  intro value h
  cases h

theorem abreast_executeDeclaration (lawful : C.Lawful) (calls : C.Calls call call')
    {initial : Node} (fits : C.Expression initial) {scope : ScopeId} (isConst : Bool)
    (name : Name) (state : C.State m log) :
    C.Abreast (executeDeclaration C.settings call scope isConst name initial)
      (executeDeclaration C.other call' scope isConst name initial) m log C.Returns := by
  refine (abreast_evaluateValue lawful calls fits _ state).bind ?_
  intro value m₁ log₁ state₁ usable
  refine (abreast_declare lawful state₁ scope name usable.fine isConst).bind ?_
  intro _ m₂ log₂ state₂ _
  refine (abreast_emit lawful state₂ _).bind ?_
  intro _ m₃ log₃ state₃ _
  exact abreast_pure state₃ returns_normal

theorem abreast_executeRoute (lawful : C.Lawful) (calls : C.Calls call call') {value : Node}
    (fits : C.Expression value) {scope : ScopeId} (name : String) (properties : List String)
    (state : C.State m log) :
    C.Abreast (executeRoute C.settings call scope name properties value)
      (executeRoute C.other call' scope name properties value) m log C.Returns := by
  refine (abreast_evaluateValue lawful calls fits _ state).bind ?_
  intro value m₁ log₁ state₁ usable
  have logged : ∀ {m' : Machine} {log' : Array LogEntry}, C.State m' log' →
      C.Abreast
        (do emit C.settings (.assigned (Node.path name properties) value); pure .normal)
        (do emit C.other (.assigned (Node.path name properties) value); pure .normal) m' log'
        C.Returns := by
    intro m' log' state'
    refine (abreast_emit lawful state' _).bind ?_
    intro _ m₂ log₂ state₂ _
    exact abreast_pure state₂ returns_normal
  cases properties with
  | nil =>
    exact (abreast_assign lawful state₁ scope (.text name) usable.fine).bind
      fun _ _ _ state' _ => logged state'
  | cons property rest =>
    exact (abreast_assignPath lawful state₁ scope name property rest usable).bind
      fun _ _ _ state' _ => logged state'

theorem abreast_executeAssignment (lawful : C.Lawful) (calls : C.Calls call call')
    {target value : Node} (targetOk : C.strict → target.targetOk = true)
    (fits : C.Expression value) {scope : ScopeId} (state : C.State m log) :
    C.Abreast (executeAssignment C.settings call scope target value)
      (executeAssignment C.other call' scope target value) m log C.Returns := by
  unfold executeAssignment
  split
  · rename_i name properties
    split
    · exact abreast_executeRoute lawful calls fits _ _ state
    · rename_i none
      refine abreast_throw state (lawful.odd (fun strict => ?_) _ rfl)
      obtain ⟨word, words, rfl, rfl⟩ := Datum.exists_words (targetOk strict)
      simp at none
  · rename_i odd
    refine abreast_throw state (lawful.odd (fun strict => ?_) _ rfl)
    have ok := targetOk strict
    unfold Node.targetOk at ok
    split at ok
    · exact odd _ _ rfl
    · cases ok

theorem abreast_executeFunction (lawful : C.Lawful) {params : Datum} {body : Node}
    (fine : C.Code ⟨params, body⟩) {scope : ScopeId} (name : Name) (state : C.State m log) :
    C.Abreast (executeFunction C.settings scope name params body)
      (executeFunction C.other scope name params body) m log C.Returns := by
  refine (abreast_declareFunction lawful state scope name fine).bind ?_
  intro _ m₁ log₁ state₁ _
  refine (abreast_emit? lawful state₁ _ fun strict => ?_).bind ?_
  · obtain ⟨words, hwords⟩ := fine.params strict
    simp only at hwords
    simp [hwords, Datum.ofWords, Datum.items?]
  · intro _ m₂ log₂ state₂ _
    exact abreast_pure state₂ returns_normal

theorem abreast_executeNone (lawful : C.Lawful) (lax : ¬ C.strict) (field : Datum)
    (state : C.State m log) :
    C.Abreast (executeNone field) (executeNone field) m log C.Returns := by
  unfold executeNone
  split
  · exact abreast_pure state returns_normal
  · exact abreast_throw state (lawful.odd lax _ rfl)
  · exact abreast_throw state (lawful.odd lax _ rfl)

theorem abreast_executeData (lawful : C.Lawful) (lax : ¬ C.strict) (datum : Datum)
    (state : C.State m log) :
    C.Abreast (executeData datum) (executeData datum) m log C.Returns := by
  unfold executeData
  split
  · exact abreast_executeNone lawful lax _ state
  · exact abreast_throw state (lawful.odd lax _ rfl)

mutual

theorem abreast_execute (lawful : C.Lawful) (calls : C.Calls call call') (node : Node)
    (fits : C.Statement node) {scope : ScopeId} {m : Machine} {log : Array LogEntry}
    (state : C.State m log) :
    C.Abreast (execute C.settings call scope node) (execute C.other call' scope node) m log
      C.Returns := by
  cases node with
  | block statements =>
    rw [execute, execute]
    exact abreast_executeAll lawful calls statements fits state
  | declaration isConst name initial =>
    rw [execute, execute]
    exact abreast_executeDeclaration lawful calls fits.initial isConst name state
  | assignment target value =>
    rw [execute, execute]
    exact abreast_executeAssignment lawful calls fits.target fits.assigned state
  | function name params body =>
    rw [execute, execute]
    exact abreast_executeFunction lawful fits.code name state
  | giveBack value =>
    by_cases none : value = .absent
    · rw [none, execute, execute]
      exact abreast_pure state (by simp [Returns])
    · rw [execute_giveBack none, execute_giveBack none]
      refine (abreast_evaluateValue lawful calls (fits.returned none) _ state).bind ?_
      intro result m₁ log₁ state₁ usable
      refine abreast_pure state₁ ?_
      rintro _ ⟨rfl⟩
      exact usable
  | callStatement inner =>
    rw [execute, execute]
    refine (abreast_evaluate lawful calls inner fits.called state).bind ?_
    intro _ m₁ log₁ state₁ _
    exact abreast_pure state₁ returns_normal
  | choice condition thenBlock elseBlock =>
    rw [execute, execute]
    refine (abreast_evaluateValue lawful calls fits.condition _ state).bind ?_
    intro value m₁ log₁ state₁ usable
    obtain ⟨truth, htruth⟩ := Value.isTruthy_of_not_isSentinel usable.noSentinel
    rw [htruth]
    refine Abreast.bind (Q := fun _ => True) (abreast_pure state₁ trivial) ?_
    intro truth m₂ log₂ state₂ _
    refine (abreast_emit lawful state₂ _).bind ?_
    intro _ m₃ log₃ state₃ _
    split
    · exact abreast_executeBranch lawful calls thenBlock fits.branches.1 state₃
    · exact abreast_executeBranch lawful calls elseBlock fits.branches.2 state₃
  | data datum =>
    rw [execute, execute]
    exact abreast_executeData lawful fits.not_strict datum state
  | _ => exact abreast_throw state (lawful.odd fits.not_strict _ rfl)
termination_by structural node

theorem abreast_executeBranch (lawful : C.Lawful) (calls : C.Calls call call') (node : Node)
    (fits : C.Branch node) {scope : ScopeId} {m : Machine} {log : Array LogEntry}
    (state : C.State m log) :
    C.Abreast (executeBranch C.settings call scope node) (executeBranch C.other call' scope node) m
      log C.Returns := by
  cases node with
  | absent => exact abreast_pure state returns_normal
  | block statements =>
    rw [executeBranch, executeBranch]
    refine (abreast_newScope state scope).bind ?_
    intro inner m₁ log₁ state₁ _
    exact abreast_executeAll lawful calls statements fits state₁
  | data datum =>
    unfold executeBranch
    split
    · exact abreast_pure state returns_normal
    · simp_all
    · exact abreast_executeNone lawful fits.not_strict _ state
    · exact abreast_throw state (lawful.odd fits.not_strict _ rfl)
  | _ => exact abreast_throw state (lawful.odd fits.not_strict _ rfl)
termination_by structural node

theorem abreast_executeAll (lawful : C.Lawful) (calls : C.Calls call call') (nodes : List Node)
    (fits : C.Statements nodes) {scope : ScopeId} {m : Machine} {log : Array LogEntry}
    (state : C.State m log) :
    C.Abreast (executeAll C.settings call scope nodes) (executeAll C.other call' scope nodes) m log
      C.Returns := by
  cases nodes with
  | nil => exact abreast_pure state returns_normal
  | cons node rest =>
    rw [executeAll, executeAll]
    refine (abreast_execute lawful calls node fits.first state).bind ?_
    intro completion m₁ log₁ state₁ returns
    cases completion with
    | normal => exact abreast_executeAll lawful calls rest fits.rest state₁
    | returned value => exact abreast_pure state₁ returns
termination_by structural nodes

end

theorem abreast_executeBody (lawful : C.Lawful) (calls : C.Calls call call') {node : Node}
    (fits : C.Body node) {scope : ScopeId} (state : C.State m log) :
    C.Abreast (executeBody C.settings call scope node) (executeBody C.other call' scope node) m log
      C.Returns := by
  unfold executeBody
  split
  · exact abreast_executeAll lawful calls _ fits state
  · exact abreast_executeNone lawful fits.not_strict _ state
  · rename_i noBlock _
    refine abreast_throw state (lawful.odd (fun strict => ?_) _ rfl)
    have ok := fits.wellFormed strict
    unfold Node.blockOk at ok
    split at ok
    · exact noBlock _ rfl
    · cases ok

end Trees

/-! ## Calls and runs -/

section Runs

variable (lawful : C.Lawful)

include lawful

theorem abreast_enter (home : ScopeId) (name : Name) (code : ScopeScript.Code)
    {arguments : List Value} (usable : ∀ value ∈ arguments, C.Usable value)
    (state : C.State m log) :
    C.Abreast (enter C.settings home name code arguments) (enter C.other home name code arguments) m
      log (fun _ => True) := by
  refine (abreast_newScope state home).bind ?_
  intro scope m₁ log₁ state₁ _
  refine (abreast_declareAll lawful scope _ state₁ ?_).bind ?_
  · intro pair hpair
    exact (usable pair.2 (List.of_mem_zip hpair).2).fine
  · intro _ m₂ log₂ state₂ _
    refine (abreast_emit lawful state₂ _).bind ?_
    intro _ m₃ log₃ state₃ _
    exact abreast_pure state₃ trivial

theorem calls_callAt (depth : Nat) : C.Calls (callAt C.settings depth) (callAt C.other depth) := by
  induction depth with
  | zero =>
    intro m log home name code arguments state _ _
    exact abreast_throw state (lawful.script _ rfl)
  | succ depth ih =>
    intro m log home name code arguments state fine usable
    rw [callAt_succ, callAt_succ]
    refine (abreast_enter lawful home name code usable state).bind ?_
    intro scope m₁ log₁ state₁ _
    refine (abreast_executeBody lawful ih fine.body state₁).bind ?_
    intro completion m₂ log₂ state₂ returns
    refine abreast_pure state₂ ?_
    unfold callValue
    split
    · exact fun _ => (returns _ rfl).fine
    · intro noSentinel
      cases noSentinel

/-- Runs of one tree keep to every lawful conduct. -/
theorem abreast_run {tree : Node} (fits : C.Statement tree) (scope : ScopeId)
    (state : C.State m log) :
    C.Abreast (run C.settings scope tree) (run C.other scope tree) m log
      (fun result => ∀ value, result = some value → C.Usable value) := by
  refine (abreast_execute lawful (calls_callAt lawful mostNestedCalls) tree fits state).bind ?_
  intro completion m₁ log₁ state₁ returns
  cases completion with
  | normal => exact abreast_pure state₁ (by simp)
  | returned result =>
    refine abreast_pure state₁ ?_
    rintro value rfl
    exact returns value rfl

end Runs

/-! ## During a run -/

/-- The trees and values of a task are of the kind that is asked for. -/
def Fine (C : Conduct) : Task → Prop
  | .evaluate _ _ node => C.Expression node
  | .arguments _ _ _ _ nodes => C.Expressions nodes
  | .call _ _ _ code values => C.Code code ∧ ∀ value ∈ values, C.Usable value
  | .execute _ _ node => C.Statement node
  | .branch _ _ node => C.Branch node
  | .body _ _ node => C.Body node
  | .all _ _ nodes => C.Statements nodes
  | .write _ _ _ _ value | .setProperty _ _ _ value => C.Usable value

/-- A moment of a run: something has to be done in a state. -/
structure Moment (C : Conduct) (task : Task) (m : Machine) : Prop where
  state : ∃ log, C.State m log
  fine : C.Fine task

theorem Moment.starts (lawful : C.Lawful) {task task' : Task} {m m' : Machine}
    (moment : C.Moment task m) (start : Starts C.settings task m task' m') :
    C.Moment task' m' := by
  obtain ⟨⟨log, state⟩, fine⟩ := moment
  have calls : ∀ depth, C.Calls (callAt C.settings depth) (callAt C.other depth) :=
    calls_callAt lawful
  cases start with
  | operand => exact ⟨⟨log, state⟩, fine.operand⟩
  | left => exact ⟨⟨log, state⟩, fine.left⟩
  | right h =>
    exact ⟨((abreast_evaluateValue lawful (calls _) fine.left _ state).reached h).1, fine.right⟩
  | arguments h => exact ⟨⟨log, state⟩, fine.arguments⟩
  | call h hargs =>
    have given := (abreast_evaluateArguments lawful (calls _) _ fine.arguments _ _ state).reached
      hargs
    exact ⟨given.1, state.scopes.code code_empty _ _, given.2⟩
  | callData hnone h => exact ⟨⟨log, state⟩, state.scopes.code code_empty _ _, by simp⟩
  | argument => exact ⟨⟨log, state⟩, fine.first⟩
  | moreArguments h =>
    exact ⟨((abreast_evaluateValue lawful (calls _) fine.first _ state).reached h).1, fine.rest⟩
  | enter h => exact ⟨((abreast_enter lawful _ _ _ fine.2 state).reached h).1, fine.1.body⟩
  | body => exact ⟨⟨log, state⟩, fine⟩
  | statements => exact ⟨⟨log, state⟩, fine⟩
  | first => exact ⟨⟨log, state⟩, fine.first⟩
  | next h =>
    exact ⟨((abreast_execute lawful (calls _) _ fine.first state).reached h).1, fine.rest⟩
  | initial => exact ⟨⟨log, state⟩, fine.initial⟩
  | assigned h => exact ⟨⟨log, state⟩, fine.assigned⟩
  | write h hvalue =>
    have given := (abreast_evaluateValue lawful (calls _) fine.assigned _ state).reached hvalue
    exact ⟨given.1, given.2⟩
  | setProperty h hpoint => exact ⟨⟨log, state⟩, fine⟩
  | returned present => exact ⟨⟨log, state⟩, fine.returned present⟩
  | called => exact ⟨⟨log, state⟩, fine.called⟩
  | condition => exact ⟨⟨log, state⟩, fine.condition⟩
  | chosen hvalue htruth hemit =>
    obtain ⟨⟨log₁, state₁⟩, -⟩ :=
      (abreast_evaluateValue lawful (calls _) fine.condition _ state).reached hvalue
    refine ⟨((abreast_emit lawful state₁ _).reached hemit).1, ?_⟩
    rw [Fine]
    split
    · exact fine.branches.1
    · exact fine.branches.2
  | inner h => exact ⟨((abreast_newScope state _).reached h).1, fine⟩

/-- Whatever a run comes to do keeps to a lawful conduct if its first task does. -/
theorem Moment.reaches (lawful : C.Lawful) {task task' : Task} {m m' : Machine}
    (moment : C.Moment task m) (h : Reaches C.settings task m task' m') : C.Moment task' m' :=
  h.invariant (fun moment start => moment.starts lawful start) moment

/-- Every state that a run comes through keeps to a lawful conduct. -/
theorem state_of_passes (lawful : C.Lawful) {tree : Node} (fits : C.Statement tree)
    {scope : ScopeId} {start : Machine} (state : C.State start log)
    (passes : Passes C.settings scope tree start m) : ∃ log₁, C.State m log₁ := by
  rcases passes with rfl | ⟨task, reached⟩
  · exact (abreast_run lawful fits scope state).leaves
  · have first : C.Moment (.execute mostNestedCalls scope tree) start := ⟨⟨log, state⟩, fits⟩
    exact (first.reaches lawful reached).state

end ScopeScript.Conduct
