import ScopeScript.CommandLine.Command
import ScopeScript.Proofs.Eval.Arithmetic
import ScopeScript.Proofs.Eval.Closed
import ScopeScript.Proofs.Eval.Moments
import ScopeScript.Proofs.Number.Representable
set_option autoImplicit false

/-!
# Eval: how operators fail

Nothing catches an error during a run, so the first one ends it, wherever it arises.  A command
reports it if it is the script's fault, and lets everything else through.

Of all operators there is only one that can fail with anything else than a fault of the script: a
number whose negation lies beyond the exponents of the context makes the minus sign fail with the
overflow of the arithmetic itself.
-/

namespace ScopeScript

/-! ## Errors end runs -/

/-- The error that a task ends in, if it does. -/
def Task.failure? (settings : Settings) : Task → Machine → Option Error
  | .evaluate d s node => (Eval.evaluate settings (Eval.callAt settings d) s node).failure?
  | .arguments d s name index nodes =>
    (Eval.evaluateArguments settings (Eval.callAt settings d) s name index nodes).failure?
  | .call d home name code values => (Eval.callAt settings d home name code values).failure?
  | .execute d s node => (Eval.execute settings (Eval.callAt settings d) s node).failure?
  | .branch d s node => (Eval.executeBranch settings (Eval.callAt settings d) s node).failure?
  | .body d s node => (Eval.executeBody settings (Eval.callAt settings d) s node).failure?
  | .all d s nodes => (Eval.executeAll settings (Eval.callAt settings d) s nodes).failure?
  | .write s name property rest value =>
    (Eval.assignPath settings s name property rest value).failure?
  | .setProperty adapter target property value => fun m =>
    match adapter.write settings.classes m.objects target property value with
    | .ok _ => none
    | .error error => some error

namespace Eval

section Propagation

variable {α β : Type} {settings : Settings} {m m' : Machine} {task task' : Task} {error : Error}

theorem failure?_eq_some_iff {x : Eval α} :
    x.failure? m = some error ↔ ∃ m', x m = .error error m' := by
  unfold failure?
  cases x m with
  | ok a m' => simp
  | error other m' => simp

theorem failure?_bind {x : Eval α} (h : x.failure? m = some error) (f : α → Eval β) :
    (x >>= f).failure? m = some error := by
  obtain ⟨m', hx⟩ := failure?_eq_some_iff.mp h
  exact failure?_eq_some_iff.mpr ⟨m', bind_of_error hx f⟩

theorem failure?_bind_of_ok {x : Eval α} {a : α} (h : x m = .ok a m') (f : α → Eval β) :
    (x >>= f).failure? m = (f a).failure? m' := by
  rw [failure?, failure?, bind_of_ok h]

/-- A sequence fails in its first part or behind it. -/
theorem failure?_bind_eq_some_iff {x : Eval α} {f : α → Eval β} :
    (x >>= f).failure? m = some error ↔
      x.failure? m = some error ∨ ∃ a m', x m = .ok a m' ∧ (f a).failure? m' = some error := by
  cases h : x m with
  | ok a m' =>
    rw [failure?_bind_of_ok h]
    simp [failure?, h]
  | error other m' => simp [failure?, bind_of_error h, h]

theorem failure?_ofExcept {result : Except Error α} :
    (ofExcept result).failure? m = some error ↔ result = .error error := by
  cases result with
  | ok a => exact iff_of_false (by rintro ⟨⟩) (by rintro ⟨⟩)
  | error other =>
    have fails : (ofExcept (.error other) : Eval α).failure? m = some other := rfl
    rw [fails, Option.some.injEq, Except.error.injEq]

/-- Where an expression fails, so does what is done with its value. -/
theorem failure?_afterValue {call : Caller} {s : ScopeId} {node : Node}
    (h : (evaluate settings call s node).failure? m = some error) (description : String)
    (f : Value → Eval α) :
    (evaluateValue settings call s description node >>= f).failure? m = some error :=
  failure?_bind (failure?_bind h _) f

theorem failure?_assignPath {s : ScopeId} {word property last : String} {rest : List String}
    {value target reached : Value} (bound : handleTarget s (.text word) m = .ok target m)
    (point : settings.writePoint m.objects word target property rest = .ok (reached, last))
    (h : (settings.registry.adapterFor settings.classes reached).write settings.classes m.objects
      reached last value = .error error) :
    (assignPath settings s word property rest value).failure? m = some error := by
  have fails : settings.writePath m.objects word (Node.path word (property :: rest)) value target
      property rest = .error error := by
    rw [Settings.writePath_eq, point]
    change settings.writeProperty m.objects word _ reached last value = _
    rw [Settings.writeProperty, h]
    rfl
  rw [assignPath, failure?_bind_of_ok bound, failure?, get_bind_apply, fails]
  rfl

/-- An error of a task that was started for another one is the error of that one. -/
theorem Starts.fails (start : Starts settings task m task' m')
    (h : task'.failure? settings m' = some error) : task.failure? settings m = some error := by
  cases start with
  | operand =>
    rw [Task.failure?, evaluate]
    exact failure?_bind h _
  | left =>
    rw [Task.failure?, evaluate_binary]
    exact failure?_afterValue h _ _
  | right hvalue =>
    rw [Task.failure?, evaluate_binary, failure?_bind_of_ok hvalue]
    exact failure?_afterValue h _ _
  | arguments applicable =>
    rw [Task.failure?, evaluate, failure?, applyFunction_eq applicable]
    exact failure?_bind h _
  | call applicable hargs =>
    rw [Task.failure?, evaluate, failure?, applyFunction_eq applicable, bind_of_ok hargs]
    exact h
  | callData hnone applicable =>
    simp only [Task.failure?, failure?, evaluate, evaluateData, hnone, Option.map_some,
      List.length_nil, applyFunction_eq applicable]
    exact h
  | argument =>
    rw [Task.failure?, evaluateArguments_cons]
    exact failure?_afterValue h _ _
  | moreArguments hvalue =>
    rw [Task.failure?, evaluateArguments_cons, failure?_bind_of_ok hvalue]
    exact failure?_bind h _
  | enter hscope =>
    rw [Task.failure?, callAt_succ, failure?_bind_of_ok hscope]
    exact failure?_bind h _
  | body | statements => exact h
  | first =>
    rw [Task.failure?, executeAll]
    exact failure?_bind h _
  | next hfirst =>
    rw [Task.failure?, executeAll, failure?_bind_of_ok hfirst]
    exact h
  | initial =>
    rw [Task.failure?, execute, executeDeclaration]
    exact failure?_afterValue h _ _
  | assigned route =>
    rw [Task.failure?, execute_assignment route, executeRoute]
    exact failure?_afterValue h _ _
  | write route hvalue =>
    rw [Task.failure?, execute_assignment route, executeRoute, failure?_bind_of_ok hvalue]
    exact failure?_bind h _
  | setProperty bound point =>
    unfold Task.failure? at h
    dsimp only at h
    split at h
    · cases h
    · rename_i hwrite
      cases h
      exact failure?_assignPath bound point hwrite
  | returned some_ =>
    rw [Task.failure?, execute_giveBack some_]
    exact failure?_afterValue h _ _
  | called =>
    rw [Task.failure?, execute]
    exact failure?_bind h _
  | condition =>
    rw [Task.failure?, execute]
    exact failure?_afterValue h _ _
  | @chosen d s node thenBlock elseBlock m v m' truth m'' hvalue htruth hemit =>
    rw [Task.failure?, execute, failure?_bind_of_ok hvalue, htruth]
    change (emit _ _ >>= _).failure? _ = _
    rw [failure?_bind_of_ok hemit]
    cases truth <;> exact h
  | inner hscope =>
    rw [Task.failure?, executeBranch, failure?_bind_of_ok hscope]
    exact h

/-- An error of anything that a task leads to is the error of the task. -/
theorem Reaches.fails (reached : Reaches settings task m task' m')
    (h : task'.failure? settings m' = some error) : task.failure? settings m = some error := by
  induction reached with
  | refl => exact h
  | step _ start ih => exact ih (start.fails h)

/-- A run fails where the execution of its tree does. -/
theorem failure?_run_eq {scope : ScopeId} {tree : Node} :
    (run settings scope tree).failure? m =
      (Task.execute mostNestedCalls scope tree).failure? settings m := by
  have caller : callAt settings mostNestedCalls = settings.caller := rfl
  rw [Task.failure?, caller, run, failure?, failure?, bind_apply]
  cases execute settings settings.caller scope tree m with
  | ok completion m' => cases completion <;> rfl
  | error other m' => rfl

end Propagation

end Eval

/-! ## Operators -/

/-- Whether a computation ends in a value that scripts compute with, or in an error that is the
script's fault. -/
def Reported : Except Error Value → Prop
  | .ok value => value.isScript = true
  | .error error => error.isScript = true

/-- Whether an operator negates a number whose negation, rounded, lies beyond the exponents of the
context. -/
def UnaryOp.Overflows (ctx : Context) (op : UnaryOp) (operand : Value) : Prop :=
  op = .minus ∧ ∃ d : Decimal, operand = .number (.finite d) ∧
    10 ^ (ctx.greatestExponent + 1) ≤ |ctx.rounded d.value|

theorem Value.allowed_of_isScript {value : Value} (h : value.isScript = true) :
    value.Allowed fun _ => True :=
  ⟨h, fun _ _ _ => trivial⟩

/-- Binary operators have no failures but faults of the script. -/
theorem BinaryOp.reported_apply (ctx : Context) (host : Host) {op : BinaryOp}
    (known : op ∈ BinaryOp.all) {a b : Value} (ha : a.isScript = true) (hb : b.isScript = true) :
    Reported (op.apply ctx host a b) := by
  have allowedA := Value.allowed_of_isScript ha
  have allowedB := Value.allowed_of_isScript hb
  have gives := gives_apply ctx host op allowedA allowedB
  cases h : op.apply ctx host a b with
  | ok value => exact (gives.allowed h).script
  | error error => exact apply_fault known allowedA allowedB h

/-- An arithmetic operator overflows where its rounded result lies beyond the context. -/
theorem BinaryOp.apply_eq_overflow_iff {ctx : Context} {op : BinaryOp} {calculate : ℚ → ℚ → ℚ}
    {host : Host} {a b : Decimal} (precise : 1 ≤ ctx.precision)
    (range : ctx.leastExponent ≤ ctx.greatestExponent) (h : op.calculation? = some calculate)
    (divisor : op = .divide → b.value ≠ 0) :
    op.apply ctx host (.number (.finite a)) (.number (.finite b)) =
        .error (.overflow op.spelling) ↔
      10 ^ (ctx.greatestExponent + 1) ≤ |ctx.rounded (calculate a.value b.value)| := by
  obtain ⟨d, same, result⟩ : ∃ d : Decimal,
      ctx.rounded d.value = ctx.rounded (calculate a.value b.value) ∧
        op.apply ctx host (.number (.finite a)) (.number (.finite b)) = op.ending (ctx.round d) :=
    apply_eq_round precise h divisor
  have outcome := Context.rounds_round precise range d
  rw [same] at outcome
  rw [result]
  generalize ctx.round d = rounded at outcome
  cases outcome with
  | overflow beyond => exact iff_of_true rfl beyond
  | number within _ _ => exact iff_of_false (by simp [ending]) (not_le.mpr within)

section Unary

variable {ctx : Context} (precise : 1 ≤ ctx.precision)
  (range : ctx.leastExponent ≤ ctx.greatestExponent)
include precise range

/-- A number is negated and rounded, unless the result is too large. -/
theorem UnaryOp.apply_minus (d : Decimal) :
    (10 ^ (ctx.greatestExponent + 1) ≤ |ctx.rounded d.value| ∧
      UnaryOp.minus.apply ctx (.number (.finite d)) = .error (.arithmetic .overflow)) ∨
    (|ctx.rounded d.value| < 10 ^ (ctx.greatestExponent + 1) ∧
      ∃ r : Decimal, UnaryOp.minus.apply ctx (.number (.finite d)) = .ok (.number (.finite r)) ∧
        r.value = -ctx.rounded d.value ∧ ctx.Represents r) := by
  unfold UnaryOp.apply
  rcases Context.negate_outcome precise range d with
    ⟨beyond, negated⟩ | ⟨within, r, negated, -, value, represents⟩
  · exact .inl ⟨beyond, by simp only [negated]⟩
  · exact .inr ⟨within, r, by simp only [negated], value, represents⟩

/-- A unary operator overflows the way the arithmetic does, or has no failures but faults of the
script. -/
theorem UnaryOp.apply_outcome {op : UnaryOp} (known : op ∈ UnaryOp.all) {operand : Value}
    (h : operand.isScript = true) :
    (op.Overflows ctx operand → op.apply ctx operand = .error (.arithmetic .overflow)) ∧
      (¬op.Overflows ctx operand → Reported (op.apply ctx operand)) := by
  constructor
  · rintro ⟨rfl, d, rfl, beyond⟩
    rcases apply_minus precise range d with ⟨-, fails⟩ | ⟨within, -⟩
    · exact fails
    · exact absurd beyond (not_le.mpr within)
  · intro fits
    have allowed := Value.allowed_of_isScript h
    unfold UnaryOp.apply
    split
    · obtain ⟨truth, htruth⟩ := allowed.isTruthy
      rw [htruth]
      rfl
    · exact h
    · rename_i n
      obtain ⟨d, rfl⟩ := allowed.finite
      rcases apply_minus precise range d with ⟨beyond, -⟩ | ⟨-, r, result, -⟩
      · exact absurd ⟨rfl, d, rfl, beyond⟩ fits
      · change Reported (UnaryOp.minus.apply ctx (.number (.finite d)))
        rw [result]
        rfl
    · simp [UnaryOp.all] at known
    · rfl

end Unary

/-! ## Commands -/

/-- During the run of a tree, from the start, an operator fails. -/
inductive Eval.OperatorFails (settings : Settings) (tree : Node) : Error → Prop
  | unary {d s op node m v m' error}
    (reached : Reaches settings (.execute mostNestedCalls globalScope tree) {}
      (.evaluate d s (.unary op node)) m)
    (operand : evaluateValue settings (callAt settings d) s ("operand of '" ++ op.spelling ++ "'")
      node m = .ok v m')
    (fails : op.apply settings.context v = .error error) : OperatorFails settings tree error
  | binary {d s op left right m a m₁ b m₂ error}
    (reached : Reaches settings (.execute mostNestedCalls globalScope tree) {}
      (.evaluate d s (.binary op left right)) m)
    (first : evaluateValue settings (callAt settings d) s
      ("left operand of '" ++ op.spelling ++ "'") left m = .ok a m₁)
    (second : evaluateValue settings (callAt settings d) s
      ("right operand of '" ++ op.spelling ++ "'") right m₁ = .ok b m₂)
    (fails : op.apply settings.context (settings.host m₂) a b = .error error) :
    OperatorFails settings tree error

/-- Where an operator fails, so does the whole run. -/
theorem Eval.OperatorFails.failure?_run {settings : Settings} {tree : Node} {error : Error}
    (h : OperatorFails settings tree error) :
    (run settings globalScope tree).failure? {} = some error := by
  have ends :
      (Task.execute mostNestedCalls globalScope tree).failure? settings {} = some error := by
    cases h with
    | unary reached operand fails =>
      refine reached.fails ?_
      rw [Task.failure?, evaluate_unary, failure?_bind_of_ok operand, fails]
      rfl
    | binary reached first second fails =>
      refine reached.fails ?_
      rw [Task.failure?, evaluate_binary, failure?_bind_of_ok first, failure?_bind_of_ok second,
        failure?, get_bind_apply, fails]
      rfl
  exact failure?_run_eq.trans ends

namespace Command

/-- What a failing run prints: the message of the error, if that is the script's fault. -/
theorem runTree_of_failure? {verbosity : ℕ} {tree : Node} {error : Error}
    (h : (Eval.run { logLevel := verbosity } globalScope tree).failure? {} = some error) :
    ∃ files, runTree verbosity tree = { failure error with files := files } := by
  obtain ⟨m', hrun⟩ := Eval.failure?_eq_some_iff.mp h
  refine ⟨if verbosity = 0 then [] else [(logFile, logText m'.log)], ?_⟩
  simp only [runTree, EStateM.run, hrun]
  rfl

end Command

/-- Binary operators and all unary ones but the minus sign have no failures but faults of the
script, and arithmetic overflows exactly where the rounded result lies beyond the exponents of the
context.  The minus sign gives a value as well, or a fault of the script, unless it is there that
the rounded negation lies: then its failure is that of the arithmetic.  A command that runs a tree
in which an operator fails reports faults of the script with exit status 1, and no other failure. -/
theorem numeric_failures_are_reported {precision : ℕ} (precise : 1 ≤ precision) :
    let ctx : Context := { precision := precision }
    (∀ op ∈ UnaryOp.all, ∀ operand : Value, operand.isScript = true →
      (op.Overflows ctx operand → op.apply ctx operand = .error (.arithmetic .overflow)) ∧
        (¬op.Overflows ctx operand → Reported (op.apply ctx operand))) ∧
    (∀ op ∈ BinaryOp.all, ∀ (host : Host) (a b : Value), a.isScript = true → b.isScript = true →
      Reported (op.apply ctx host a b)) ∧
    (∀ (op : BinaryOp) (calculate : ℚ → ℚ → ℚ), op.calculation? = some calculate →
      ∀ (host : Host) (a b : Decimal), ¬(op = .divide ∧ b.value = 0) →
        (op.apply ctx host (.number (.finite a)) (.number (.finite b)) =
            .error (.overflow op.spelling) ↔
          10 ^ (ctx.greatestExponent + 1) ≤ |ctx.rounded (calculate a.value b.value)|)) ∧
    ∀ (verbosity : ℕ) (tree : Node) (error : Error),
      Eval.OperatorFails { logLevel := verbosity } tree error →
      let outcome := Command.runTree verbosity tree
      outcome.stdout = "" ∧
      (error.isScript = true → outcome.status = .ok 1 ∧
        outcome.stderr = "Error: " ++ error.message?.getD "" ++ "\n") ∧
      (error.isScript = false → outcome.status = .error error ∧ outcome.stderr = "") := by
  intro ctx
  have range : ctx.leastExponent ≤ ctx.greatestExponent := (by decide : (-999999 : ℤ) ≤ 999999)
  refine ⟨?_, ?_, ?_, ?_⟩
  · intro op known operand script
    exact UnaryOp.apply_outcome precise range known script
  · intro op known host a b ha hb
    exact BinaryOp.reported_apply ctx host known ha hb
  · intro op calculate h host a b defined
    exact BinaryOp.apply_eq_overflow_iff precise range h fun division zero =>
      defined ⟨division, zero⟩
  · intro verbosity tree error fails outcome
    obtain ⟨files, ends⟩ := Command.runTree_of_failure? fails.failure?_run
    rw [show outcome = _ from ends, Command.failure]
    cases error.isScript <;> simp

/-- The product of the greatest power of ten and ten, as the first value of a variable. -/
def overflowingProduct : Node :=
  .block [.declaration false (.text "x")
    (.binary .multiply (.literal (.number (.finite ⟨false, 1, 999999⟩)))
      (.literal (.number (.finite ⟨false, 10, 0⟩))))]

/-- The product of numbers that a context has may be too large for it, and a text has no negation; a
command reports either. -/
theorem numeric_failures_are_reported_overflowingProduct :
    1 ≤ 28 ∧
    Reported (UnaryOp.minus.apply { precision := 28 } (.text "10")) ∧
    Reported (BinaryOp.multiply.apply { precision := 28 } default
      (.number (.finite ⟨false, 1, 999999⟩)) (.number (.finite ⟨false, 10, 0⟩))) ∧
    (Command.runTree 0 overflowingProduct).status = .ok 1 ∧
    (Command.runTree 0 overflowingProduct).stderr =
      "Error: Result of '*' is too large to represent.\n" := by
  obtain ⟨unary, binary, -, command⟩ := numeric_failures_are_reported (by decide : 1 ≤ 28)
  have text : ¬UnaryOp.minus.Overflows { precision := 28 } (.text "10") := by
    rintro ⟨-, d, number, -⟩
    cases number
  have fails : Eval.OperatorFails { logLevel := 0 } overflowingProduct (.overflow "*") :=
    .binary (.step (.step (.step .refl .statements) .first) .initial) rfl rfl rfl
  obtain ⟨-, reported, -⟩ := command 0 overflowingProduct _ fails
  exact ⟨by decide, (unary .minus (by decide) (.text "10") rfl).2 text,
    binary .multiply (by decide) default _ _ rfl rfl, reported rfl⟩

/-- The negation of a number beyond every exponent, as the first value of a variable. -/
def overflowingNegation : Node :=
  .block [.declaration false (.text "x")
    (.unary .minus (.literal (.number (.finite ⟨false, 1, 1000000⟩))))]

/-- The negation of a number may be no value and no fault of the script either, and a command that
runs into that reports nothing. -/
theorem negation_overflow_is_not_reported :
    (Value.number (.finite ⟨false, 1, 1000000⟩)).isScript = true ∧
    ¬Reported (UnaryOp.minus.apply { precision := 28 } (.number (.finite ⟨false, 1, 1000000⟩))) ∧
    (Command.runTree 0 overflowingNegation).status = .error (.arithmetic .overflow) := by
  refine ⟨rfl, Bool.false_ne_true, ?_⟩
  have fails : Eval.OperatorFails { logLevel := 0 } overflowingNegation (.arithmetic .overflow) :=
    .unary (.step (.step (.step .refl .statements) .first) .initial) rfl rfl
  obtain ⟨files, ends⟩ := Command.runTree_of_failure? fails.failure?_run
  rw [ends]
  rfl

end ScopeScript
