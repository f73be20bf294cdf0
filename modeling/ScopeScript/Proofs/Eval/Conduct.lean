import ScopeScript.Proofs.Eval.Closed
import ScopeScript.Proofs.Tree.WellFormed
set_option autoImplicit false

/-!
# Eval: what runs keep to

A conduct is a condition on runs that can be checked one operation at a time: what values a run
computes with, what the host objects are like, how a run may fail.  It is about two runs of one tree
side by side, which may log differently and otherwise do the same; a run beside itself is a run.

`Conduct.Abreast` is the condition on two computations.  `Conduct.Lawful` says what has to be shown
of a conduct: that it agrees with values, operators, properties and logging.  That all runs keep to
a lawful conduct is shown in `ScopeScript.Proofs.Eval.ConductRun`, once for all.
-/

namespace ScopeScript

/-- A name and properties that are well-formed are words. -/
theorem Datum.exists_words {name properties : Datum}
    (h : (name.isName && properties.isNames) = true) :
    ∃ word words, name = .text word ∧ properties = .ofWords words := by
  rw [Bool.and_eq_true] at h
  obtain ⟨word, hname, -⟩ := isName_iff.mp h.1
  obtain ⟨words, hproperties, -⟩ := isNames_iff.mp h.2
  exact ⟨word, words, hname, hproperties⟩

/-- The log with an entry more, unless it has less detail than that. -/
def LogEntry.joins (entry : LogEntry) (level : Nat) (log : Array LogEntry) : Array LogEntry :=
  if entry.event.level ≤ level then log.push entry else log

theorem Eval.emit_eq (settings : Settings) (event : Event) (m : Machine) :
    emit settings event m = .ok () { m with
      log := (LogEntry.joins ⟨event, event.line (settings.host m)⟩ settings.logLevel m.log) } := by
  unfold emit LogEntry.joins
  split <;> rfl

/-- What two runs of one tree keep to. -/
structure Conduct where
  settings : Settings
  /-- how much the second run logs -/
  level : Nat
  /-- whether trees have to be well-formed -/
  strict : Prop
  /-- what trees may have for literals -/
  literal : Value → Prop
  /-- the values that the runs compute with -/
  value : Value → Prop
  /-- what the host objects are like -/
  objects : HostObjects → Prop
  /-- the logs of the two runs -/
  logs : Array LogEntry → Array LogEntry → Prop
  /-- the errors that the runs may end in -/
  error : Error → Prop

namespace Conduct

variable {α β : Type} {C : Conduct} {m : Machine} {log : Array LogEntry}

/-- The settings of the second run. -/
def other (C : Conduct) : Settings := { C.settings with logLevel := C.level }

theorem other_follow (objects : HostObjects) (owner : Name) (target : Value) (names : List Name) :
    C.other.follow objects owner target names = C.settings.follow objects owner target names := by
  induction names generalizing target with
  | nil => rfl
  | cons name rest ih =>
    simp only [Settings.follow, ih]
    rfl

theorem other_writePath (objects : HostObjects) (owner path : String) (value target : Value)
    (name : String) (rest : List String) :
    C.other.writePath objects owner path value target name rest =
      C.settings.writePath objects owner path value target name rest := by
  induction rest generalizing target name with
  | nil => rfl
  | cons next rest ih =>
    simp only [Settings.writePath, ih]
    rfl

/-! ## Trees -/

/-- What is asked of trees: that their literals satisfy a condition, and that they are well-formed
where that is asked for. -/
structure Fits (C : Conduct) (wellFormed : Bool) (literals : Prop) : Prop where
  wellFormed : C.strict → wellFormed = true
  literals : literals

theorem Fits.part {ok ok' : Bool} {literals literals' : Prop} (fits : C.Fits ok literals)
    (hok : ok = true → ok' = true) (h : literals → literals') : C.Fits ok' literals' :=
  ⟨fun strict => hok (fits.wellFormed strict), h fits.literals⟩

theorem Fits.not_strict {literals : Prop} (fits : C.Fits false literals) : ¬ C.strict :=
  fun strict => Bool.false_ne_true (fits.wellFormed strict)

/-- A condition on the code of functions. -/
def Code (C : Conduct) (code : Code) : Prop :=
  C.Fits code.isWellFormed (code.body.EveryLiteral C.literal)

theorem code_empty : C.Code .empty :=
  ⟨fun _ => rfl, by simp [Node.EveryLiteral, Code.empty, Node.literals, Node.literalsIn]⟩

/-- What is asked of an expression. -/
def Expression (C : Conduct) (node : Node) : Prop :=
  C.Fits node.exprOk (node.EveryLiteral C.literal)

/-- What is asked of several expressions. -/
def Expressions (C : Conduct) (nodes : List Node) : Prop :=
  C.Fits (Node.exprsOk nodes) (Node.EveryLiteralIn C.literal nodes)

/-- What is asked of a statement, or of a block in the place of one. -/
def Statement (C : Conduct) (node : Node) : Prop :=
  C.Fits (node.statementOk || node.blockOk) (node.EveryLiteral C.literal)

/-- What is asked of a branch of a choice. -/
def Branch (C : Conduct) (node : Node) : Prop :=
  C.Fits node.elseOk (node.EveryLiteral C.literal)

/-- What is asked of the body of a function. -/
def Body (C : Conduct) (node : Node) : Prop :=
  C.Fits node.blockOk (node.EveryLiteral C.literal)

/-- What is asked of several statements. -/
def Statements (C : Conduct) (nodes : List Node) : Prop :=
  C.Fits (Node.statementsOk nodes) (Node.EveryLiteralIn C.literal nodes)

/-! ### Parts of trees -/

section Parts

variable {node : Node} {nodes : List Node}

theorem Code.params {code : ScopeScript.Code} (fine : C.Code code) (strict : C.strict) :
    ∃ words, code.params = .ofWords words := by
  have ok := fine.wellFormed strict
  rw [ScopeScript.Code.isWellFormed, Bool.and_eq_true] at ok
  obtain ⟨words, hwords, -⟩ := Datum.isNames_iff.mp ok.1
  exact ⟨words, hwords⟩

theorem Code.body {code : ScopeScript.Code} (fine : C.Code code) : C.Body code.body :=
  fine.part (fun ok => ((Bool.and_eq_true _ _).mp ok).2) id

theorem Expression.arguments {name : Name} (fits : C.Expression (.call name nodes)) :
    C.Expressions nodes :=
  fits.part (fun ok => ((Bool.and_eq_true _ _).mp ok).2) id

theorem Expression.operator {op : UnaryOp} (fits : C.Expression (.unary op node)) :
    C.strict → op ∈ UnaryOp.all := by
  intro strict
  have ok := fits.wellFormed strict
  simp only [Node.exprOk, Bool.and_eq_true, decide_eq_true_eq] at ok
  exact ok.1

theorem Expression.operand {op : UnaryOp} (fits : C.Expression (.unary op node)) :
    C.Expression node :=
  fits.part (fun ok => ((Bool.and_eq_true _ _).mp ok).2) id

theorem Expression.binaryOperator {op : BinaryOp} {left right : Node}
    (fits : C.Expression (.binary op left right)) : C.strict → op ∈ BinaryOp.all := by
  intro strict
  have ok := fits.wellFormed strict
  simp only [Node.exprOk, Bool.and_eq_true, decide_eq_true_eq] at ok
  exact ok.1.1

theorem Expression.left {op : BinaryOp} {left right : Node}
    (fits : C.Expression (.binary op left right)) : C.Expression left := by
  refine fits.part (fun ok => ?_) fun literals => (Node.everyLiteral_binary.mp literals).1
  simp only [Node.exprOk, Bool.and_eq_true] at ok
  exact ok.1.2

theorem Expression.right {op : BinaryOp} {left right : Node}
    (fits : C.Expression (.binary op left right)) : C.Expression right := by
  refine fits.part (fun ok => ?_) fun literals => (Node.everyLiteral_binary.mp literals).2
  simp only [Node.exprOk, Bool.and_eq_true] at ok
  exact ok.2

theorem Expressions.first (fits : C.Expressions (node :: nodes)) : C.Expression node :=
  fits.part (fun ok => ((Bool.and_eq_true _ _).mp ok).1)
    fun literals => (Node.everyLiteralIn_cons.mp literals).1

theorem Expressions.rest (fits : C.Expressions (node :: nodes)) : C.Expressions nodes :=
  fits.part (fun ok => ((Bool.and_eq_true _ _).mp ok).2)
    fun literals => (Node.everyLiteralIn_cons.mp literals).2

theorem Statement.initial {isConst : Bool} {name : Name}
    (fits : C.Statement (.declaration isConst name node)) : C.Expression node := by
  refine fits.part (fun ok => ?_) id
  simp only [Node.statementOk, Node.blockOk, Bool.or_false, Bool.and_eq_true] at ok
  exact ok.2

theorem Statement.target {target : Node} (fits : C.Statement (.assignment target node)) :
    C.strict → target.targetOk = true := by
  intro strict
  have ok := fits.wellFormed strict
  simp only [Node.statementOk, Node.blockOk, Bool.or_false, Bool.and_eq_true] at ok
  exact ok.1

theorem Statement.assigned {target : Node} (fits : C.Statement (.assignment target node)) :
    C.Expression node := by
  refine fits.part (fun ok => ?_) fun literals => (Node.everyLiteral_assignment.mp literals).2
  simp only [Node.statementOk, Node.blockOk, Bool.or_false, Bool.and_eq_true] at ok
  exact ok.2

theorem Statement.code {name : Name} {params : Datum}
    (fits : C.Statement (.function name params node)) : C.Code ⟨params, node⟩ := by
  refine fits.part (fun ok => ?_) id
  simp only [Node.statementOk, Node.blockOk, Bool.or_false, Bool.and_eq_true] at ok
  simp [ScopeScript.Code.isWellFormed, ok.1.2, ok.2]

theorem Statement.returned (fits : C.Statement (.giveBack node)) (present : node ≠ .absent) :
    C.Expression node := by
  refine fits.part (fun ok => ?_) id
  simp only [Node.blockOk, Bool.or_false] at ok
  exact Node.exprOk_of_giveBack present ok

theorem Statement.called (fits : C.Statement (.callStatement node)) : C.Expression node := by
  refine fits.part (fun ok => ?_) id
  simp only [Node.statementOk, Node.blockOk, Bool.or_false] at ok
  exact Node.exprOk_of_callOk ok

theorem Statement.condition {thenBlock elseBlock : Node}
    (fits : C.Statement (.choice node thenBlock elseBlock)) : C.Expression node := by
  refine fits.part (fun ok => ?_) fun literals => (Node.everyLiteral_choice.mp literals).1
  simp only [Node.statementOk, Node.blockOk, Bool.or_false, Bool.and_eq_true] at ok
  exact ok.1.1

/-- Both branches of a choice may be executed as one. -/
theorem Statement.branches {thenBlock elseBlock : Node}
    (fits : C.Statement (.choice node thenBlock elseBlock)) :
    C.Branch thenBlock ∧ C.Branch elseBlock := by
  have ok : C.strict → thenBlock.blockOk = true ∧ elseBlock.elseOk = true := by
    intro strict
    have ok := fits.wellFormed strict
    simp only [Node.statementOk, Node.blockOk, Bool.or_false, Bool.and_eq_true] at ok
    exact ⟨ok.1.2, ok.2⟩
  obtain ⟨-, literalsThen, literalsElse⟩ := Node.everyLiteral_choice.mp fits.literals
  exact ⟨⟨fun strict => Node.elseOk_of_blockOk (ok strict).1, literalsThen⟩,
    ⟨fun strict => (ok strict).2, literalsElse⟩⟩

theorem Statements.first (fits : C.Statements (node :: nodes)) : C.Statement node := by
  refine fits.part (fun ok => ?_) fun literals => (Node.everyLiteralIn_cons.mp literals).1
  simp only [Node.statementsOk, Bool.and_eq_true] at ok
  simp [ok.1.1]

theorem Statements.rest (fits : C.Statements (node :: nodes)) : C.Statements nodes := by
  refine fits.part (fun ok => ?_) fun literals => (Node.everyLiteralIn_cons.mp literals).2
  simp only [Node.statementsOk, Bool.and_eq_true] at ok
  exact ok.1.2

end Parts

/-! ## Values -/

/-- A value that is used as one. -/
structure Usable (C : Conduct) (value : Value) : Prop where
  fine : C.value value
  noSentinel : value.isSentinel = false

/-- What an expression gives, which may be a sentinel. -/
def Given (C : Conduct) (value : Value) : Prop := value.isSentinel = false → C.value value

/-- What an operation on values gives. -/
def Yields (C : Conduct) : Except Error Value → Prop
  | .ok value => C.Given value
  | .error error => C.error error

theorem yields_of {result : Except Error Value}
    (given : ∀ value, result = .ok value → C.Given value)
    (fails : ∀ error, result = .error error → C.error error) : C.Yields result := by
  cases result with
  | ok value => exact given value rfl
  | error error => exact fails error rfl

/-! ## States -/

/-- The states of the two runs at one moment: the second run differs in its log at most. -/
structure State (C : Conduct) (m : Machine) (log : Array LogEntry) : Prop where
  scopes : m.scopes.Holding C.value C.Code
  objects : C.objects m.objects
  logs : C.logs m.log log

/-- From the state `m` and from the same one with the log `log`, the two computations end alike, in
states of that kind. -/
def Abreast (C : Conduct) (x x' : Eval α) (m : Machine) (log : Array LogEntry) (Q : α → Prop) :
    Prop :=
  Eval.Ensures x m
    (fun a m₁ => ∃ log₁, x' { m with log := log } = .ok a { m₁ with log := log₁ } ∧
      C.State m₁ log₁ ∧ Q a)
    (fun error m₁ => ∃ log₁, x' { m with log := log } = .error error { m₁ with log := log₁ } ∧
      C.State m₁ log₁ ∧ C.error error)

/-- What has to be shown of a conduct. -/
structure Lawful (C : Conduct) : Prop where
  /-- a script may fail for reasons of its own -/
  script : ∀ error, error.isDefect = false → C.error error
  /-- and for any reason but a sentinel, where trees need not be well-formed -/
  odd : ¬ C.strict → ∀ error, error.isInternal = false → C.error error
  literal : ∀ value, C.literal value → C.Given value
  plain : ∀ value, value.isPlain = true → C.value value
  function : ∀ home name, C.value (.function home name)
  unary : ∀ op value, (C.strict → op ∈ UnaryOp.all) → C.Usable value →
    C.Yields (op.apply C.settings.context value)
  binary : ∀ objects op a b, (C.strict → op ∈ BinaryOp.all) → C.objects objects → C.Usable a →
    C.Usable b → C.Yields (op.apply C.settings.context ⟨C.settings.classes, objects⟩ a b)
  /-- properties are read -/
  follow : ∀ objects owner target copy properties, C.objects objects →
    C.value (.handle target copy) →
    (C.strict → ∃ words : List String, properties = words.map .text) →
    ∀ error, C.settings.follow objects owner target properties = .error error → C.error error
  /-- properties are written -/
  write : ∀ objects owner path target copy property rest value, C.objects objects →
    C.value (.handle target copy) → C.Usable value →
    match C.settings.writePath objects owner path value target property rest with
    | .ok objects' => C.objects objects'
    | .error error => C.error error
  /-- the two runs log the same events, as far as they log them -/
  logged : ∀ log log' (entry : LogEntry), C.logs log log' →
    C.logs (entry.joins C.settings.logLevel log) (entry.joins C.level log')
  /-- and the same ones, where it may matter for more than the log -/
  level : ¬ C.strict → C.level = C.settings.logLevel

/-! ## Sequences -/

variable {x x' : Eval α} {Q : α → Prop}

theorem abreast_of_ok {a : α} {m₁ : Machine} {log₁ : Array LogEntry} (h : x m = .ok a m₁)
    (h' : x' { m with log := log } = .ok a { m₁ with log := log₁ }) (state : C.State m₁ log₁)
    (holds : Q a) : C.Abreast x x' m log Q := by
  unfold Abreast Eval.Ensures
  rw [h]
  exact ⟨log₁, h', state, holds⟩

theorem abreast_of_error {error : Error} {m₁ : Machine} {log₁ : Array LogEntry}
    (h : x m = .error error m₁)
    (h' : x' { m with log := log } = .error error { m₁ with log := log₁ })
    (state : C.State m₁ log₁) (fine : C.error error) : C.Abreast x x' m log Q := by
  unfold Abreast Eval.Ensures
  rw [h]
  exact ⟨log₁, h', state, fine⟩

theorem abreast_pure (state : C.State m log) {a : α} (holds : Q a) :
    C.Abreast (pure a) (pure a) m log Q :=
  abreast_of_ok rfl rfl state holds

theorem abreast_throw (state : C.State m log) {error : Error} (fine : C.error error) :
    C.Abreast (throw error) (throw error) m log Q := by
  have fails : ∀ m' : Machine, (throw error : Eval α) m' = .error error m' := fun _ => rfl
  exact abreast_of_error (fails m) (fails _) state fine

theorem abreast_get {f f' : Machine → Eval α}
    (h : C.Abreast (f m) (f' { m with log := log }) m log Q) :
    C.Abreast (get >>= f) (get >>= f') m log Q := h

theorem Abreast.bind {R : β → Prop} {f f' : α → Eval β} (hx : C.Abreast x x' m log Q)
    (hf : ∀ a m₁ log₁, C.State m₁ log₁ → Q a → C.Abreast (f a) (f' a) m₁ log₁ R) :
    C.Abreast (x >>= f) (x' >>= f') m log R := by
  cases hm : x m with
  | error error m₁ =>
    obtain ⟨log₁, hm', state, fine⟩ := hx.error hm
    exact abreast_of_error (Eval.bind_of_error hm f) (Eval.bind_of_error hm' f') state fine
  | ok a m₁ =>
    obtain ⟨log₁, hm', state, holds⟩ := hx.ok hm
    have after := hf a m₁ log₁ state holds
    cases hm₁ : f a m₁ with
    | error error m₂ =>
      obtain ⟨log₂, hm₁', state', fine⟩ := after.error hm₁
      exact abreast_of_error ((Eval.bind_of_ok hm f).trans hm₁)
        ((Eval.bind_of_ok hm' f').trans hm₁') state' fine
    | ok b m₂ =>
      obtain ⟨log₂, hm₁', state', holds'⟩ := after.ok hm₁
      exact abreast_of_ok ((Eval.bind_of_ok hm f).trans hm₁)
        ((Eval.bind_of_ok hm' f').trans hm₁') state' holds'

theorem Abreast.mono {R : α → Prop} (hx : C.Abreast x x' m log Q) (h : ∀ a, Q a → R a) :
    C.Abreast x x' m log R :=
  Eval.Ensures.mono hx (fun a _ ⟨log₁, h₁, state, holds⟩ => ⟨log₁, h₁, state, h a holds⟩)
    (fun _ _ fails => fails)

/-- What is known of a result. -/
theorem Abreast.reached (hx : C.Abreast x x' m log Q) {a : α} {m₁ : Machine} (h : x m = .ok a m₁) :
    (∃ log₁, C.State m₁ log₁) ∧ Q a := by
  obtain ⟨log₁, -, state, holds⟩ := hx.ok h
  exact ⟨⟨log₁, state⟩, holds⟩

/-- What is known of a failure. -/
theorem Abreast.failed (hx : C.Abreast x x' m log Q) {error : Error} {m₁ : Machine}
    (h : x m = .error error m₁) : (∃ log₁, C.State m₁ log₁) ∧ C.error error := by
  obtain ⟨log₁, -, state, fine⟩ := hx.error h
  exact ⟨⟨log₁, state⟩, fine⟩

theorem Abreast.leaves (hx : C.Abreast x x' m log Q) : ∃ log₁, C.State (x.leaves m) log₁ := by
  cases h : x m with
  | ok a m₁ => exact Eval.leaves_of_ok h ▸ (hx.reached h).1
  | error error m₁ => exact Eval.leaves_of_error h ▸ (hx.failed h).1

/-! ## Single operations -/

section Operations

open Eval

theorem abreast_ofExcept (state : C.State m log) {result : Except Error α}
    (holds : ∀ a, result = .ok a → Q a) (fails : ∀ error, result = .error error → C.error error) :
    C.Abreast (Eval.ofExcept result) (Eval.ofExcept result) m log Q := by
  cases result with
  | ok a => exact abreast_pure state (holds a rfl)
  | error error => exact abreast_throw state (fails error rfl)

theorem abreast_yields (state : C.State m log) {result : Except Error Value}
    (yields : C.Yields result) :
    C.Abreast (Eval.ofExcept result) (Eval.ofExcept result) m log C.Given := by
  cases result with
  | ok value => exact abreast_pure state yields
  | error error => exact abreast_throw state yields

theorem abreast_updateScopes (state : C.State m log) {problem? : Scopes → Option Error}
    {change : Scopes → Scopes} (fails : ∀ error, problem? m.scopes = some error → C.error error)
    (holding : (change m.scopes).Holding C.value C.Code) :
    C.Abreast (updateScopes problem? change) (updateScopes problem? change) m log
      (fun _ => True) := by
  cases h : problem? m.scopes with
  | some error =>
    have refused : ∀ m' : Machine, m'.scopes = m.scopes →
        updateScopes problem? change m' = .error error m' := by
      intro m' same
      rw [updateScopes_apply, same, h]
    exact abreast_of_error (refused m rfl) (refused _ rfl) state (fails error h)
  | none =>
    have updated : ∀ m' : Machine, m'.scopes = m.scopes →
        updateScopes problem? change m' = .ok () { m' with scopes := change m.scopes } := by
      intro m' same
      rw [updateScopes_apply, same, h]
    exact abreast_of_ok (updated m rfl) (updated _ rfl) ⟨holding, state.objects, state.logs⟩ trivial

theorem abreast_newScope (state : C.State m log) (scope : ScopeId) :
    C.Abreast (newScope scope) (newScope scope) m log (fun _ => True) :=
  abreast_of_ok (newScope_apply scope m) (newScope_apply scope _)
    ⟨state.scopes.add _, state.objects, state.logs⟩ trivial

variable (lawful : C.Lawful)

include lawful

theorem abreast_demand (state : C.State m log) (description : String) {value : Value}
    (given : C.Given value) :
    C.Abreast (demand description value) (demand description value) m log C.Usable := by
  unfold demand
  split
  · exact abreast_throw state (lawful.script _ rfl)
  · rename_i noSentinel
    rw [Bool.not_eq_true] at noSentinel
    exact abreast_pure state ⟨given noSentinel, noSentinel⟩

theorem abreast_lookup (state : C.State m log) (scope : ScopeId) (name : Name) :
    C.Abreast (lookup scope name) (lookup scope name) m log C.value := by
  cases h : m.scopes.lookup scope name with
  | ok value =>
    have found : ∀ m' : Machine, m'.scopes = m.scopes → lookup scope name m' = .ok value m' := by
      intro m' same
      rw [lookup_apply, same, h]
    exact abreast_of_ok (found m rfl) (found _ rfl) state (state.scopes.lookup h)
  | error error =>
    have missing : ∀ m' : Machine, m'.scopes = m.scopes →
        lookup scope name m' = .error error m' := by
      intro m' same
      rw [lookup_apply, same, h]
    refine abreast_of_error (missing m rfl) (missing _ rfl) state ?_
    rw [Scopes.lookup_error h]
    exact lawful.script _ rfl

theorem abreast_declare (state : C.State m log) (scope : ScopeId) (name : Name) {value : Value}
    (fine : C.value value) (isConst : Bool) :
    C.Abreast (declare scope name value isConst) (declare scope name value isConst) m log
      (fun _ => True) := by
  refine abreast_updateScopes state ?_ (state.scopes.bind fine scope name isConst)
  intro error h
  unfold Scopes.declareProblem? at h
  split at h
  · cases h
    exact lawful.script _ rfl
  · cases h

theorem abreast_declareAll (scope : ScopeId) (pairs : List (Name × Value))
    (state : C.State m log) (fine : ∀ pair ∈ pairs, C.value pair.2) :
    C.Abreast (declareAll scope pairs) (declareAll scope pairs) m log (fun _ => True) := by
  induction pairs generalizing m log with
  | nil => exact abreast_pure state trivial
  | cons pair rest ih =>
    refine (abreast_declare lawful state scope pair.1 (fine pair (by simp)) false).bind ?_
    intro _ m₁ log₁ state₁ _
    exact ih state₁ fun other hother => fine other (by simp [hother])

theorem abreast_declareFunction (state : C.State m log) (scope : ScopeId) (name : Name)
    {code : ScopeScript.Code} (fine : C.Code code) :
    C.Abreast (declareFunction scope name code) (declareFunction scope name code) m log
      (fun _ => True) := by
  refine abreast_updateScopes state ?_
    (state.scopes.bindFunction (lawful.function scope name) fine)
  intro error h
  unfold Scopes.declareProblem? at h
  split at h
  · cases h
    exact lawful.script _ rfl
  · cases h

theorem abreast_assign (state : C.State m log) (scope : ScopeId) (name : Name) {value : Value}
    (fine : C.value value) :
    C.Abreast (assign scope name value) (assign scope name value) m log (fun _ => True) := by
  refine abreast_updateScopes state ?_ (state.scopes.store fine scope name)
  intro error h
  unfold Scopes.assignProblem? at h
  split at h
  · split at h
    · cases h
      exact lawful.script _ rfl
    · cases h
  · cases h
    exact lawful.script _ rfl

theorem abreast_emit (state : C.State m log) (event : Event) :
    C.Abreast (emit C.settings event) (emit C.other event) m log (fun _ => True) :=
  abreast_of_ok (emit_eq C.settings event m) (emit_eq C.other event _)
    ⟨state.scopes, state.objects, lawful.logged _ _ _ state.logs⟩ trivial

/-- An event that there may not be, and is there if trees are well-formed. -/
theorem abreast_emit? (state : C.State m log) (level : Nat) {event : Option Event}
    (some_ : C.strict → event.isSome = true) :
    C.Abreast (emit? C.settings level event) (emit? C.other level event) m log
      (fun _ => True) := by
  cases event with
  | some event => exact abreast_emit lawful state event
  | none =>
    have lax : ¬ C.strict := fun strict => Bool.false_ne_true (some_ strict)
    have same : C.other.logLevel = C.settings.logLevel := lawful.level lax
    by_cases shown : level ≤ C.settings.logLevel
    · rw [emit?, emit?, if_pos shown, if_pos (same ▸ shown)]
      exact abreast_throw state (lawful.odd lax _ rfl)
    · rw [emit?, emit?, if_neg shown, if_neg (same ▸ shown)]
      exact abreast_pure state trivial

end Operations

/-! ## Properties -/

section Properties

open Eval

variable (lawful : C.Lawful)

include lawful

/-- A handle is one of the values that are computed with. -/
theorem abreast_handleTarget (state : C.State m log) (scope : ScopeId) (name : Name) :
    C.Abreast (handleTarget scope name) (handleTarget scope name) m log
      (fun target => ∃ copy, C.value (.handle target copy)) := by
  refine (abreast_lookup lawful state scope name).bind ?_
  intro value m₁ log₁ state₁ fine
  split
  · exact abreast_pure state₁ ⟨_, fine⟩
  · exact abreast_throw state₁ (lawful.script _ rfl)

theorem abreast_ofHost (state : C.State m log) (value : Value) :
    C.Abreast (Eval.ofExcept value.ofHost) (Eval.ofExcept value.ofHost) m log C.value := by
  refine abreast_ofExcept state ?_ ?_
  · intro result h
    exact lawful.plain result (Value.isPlain_ofHost h)
  · intro error h
    exact lawful.script error (Value.ofHost_error h)

theorem abreast_readPath (state : C.State m log) (scope : ScopeId) {name : Name}
    {properties : Datum}
    (spelled : C.strict → ∃ word words, name = .text word ∧ properties = .ofWords words) :
    C.Abreast (readPath C.settings scope name properties) (readPath C.other scope name properties)
      m log C.value := by
  refine (abreast_handleTarget lawful state scope name).bind ?_
  rintro target m₁ log₁ state₁ ⟨copy, fine⟩
  cases hitems : properties.items? with
  | some items =>
    refine abreast_get ?_
    rw [other_follow]
    refine Abreast.bind (Q := fun _ => True) (abreast_ofExcept state₁ (fun _ _ => trivial) ?_) ?_
    · refine lawful.follow _ _ _ copy _ state₁.objects fine fun strict => ?_
      obtain ⟨word, words, rfl, rfl⟩ := spelled strict
      exact ⟨words, (Option.some.inj hitems).symm⟩
    · intro value m₂ log₂ state₂ _
      refine (abreast_emit? lawful state₂ _ fun strict => ?_).bind ?_
      · obtain ⟨word, words, rfl, rfl⟩ := spelled strict
        simp [Node.path?]
      · intro _ m₃ log₃ state₃ _
        exact abreast_ofHost lawful state₃ value
  | none =>
    refine abreast_throw state₁ (lawful.odd (fun strict => ?_) _ rfl)
    obtain ⟨word, words, rfl, rfl⟩ := spelled strict
    cases hitems

theorem abreast_assignPath (state : C.State m log) (scope : ScopeId) (name property : String)
    (rest : List String) {value : Value} (usable : C.Usable value) :
    C.Abreast (assignPath C.settings scope name property rest value)
      (assignPath C.other scope name property rest value) m log (fun _ => True) := by
  refine (abreast_handleTarget lawful state scope (.text name)).bind ?_
  rintro target m₁ log₁ state₁ ⟨copy, fine⟩
  have write := lawful.write m₁.objects name (Node.path name (property :: rest)) target copy
    property rest value state₁.objects fine usable
  refine abreast_get ?_
  simp only [other_writePath]
  generalize C.settings.writePath m₁.objects name (Node.path name (property :: rest)) value target
    property rest = written at write
  cases written with
  | error error => exact abreast_throw state₁ write
  | ok objects =>
    have replaced : ∀ m m' : Machine, (EStateM.set m' : Eval PUnit) m = .ok .unit m' :=
      fun _ _ => rfl
    have set : C.Abreast (EStateM.set { m₁ with objects := objects })
        (EStateM.set { m₁ with objects := objects, log := log₁ }) m₁ log₁ (fun _ => True) :=
      abreast_of_ok (replaced m₁ _) (replaced _ _) ⟨state₁.scopes, write, state₁.logs⟩ trivial
    have ended := set.bind fun _ _ _ state₂ _ =>
      abreast_emit lawful state₂ (.propertyWritten (Node.path name (property :: rest)))
    exact ended

end Properties

end Conduct

end ScopeScript
