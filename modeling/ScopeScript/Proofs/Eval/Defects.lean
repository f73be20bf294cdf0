import ScopeScript.Proofs.Eval.Origin
import ScopeScript.Proofs.Eval.Proper
set_option autoImplicit false

/-!
# Eval: how parsed scripts reach defects

Some errors are not a script's doing: an operation was asked of something that does not have it, or
a node stands where none of its kind can stand.  Of a script that was parsed every node is
well-formed, and every operator is one of the language, and so it is with functions that were there
before if they come from scripts as well.  A property path fails for want of a property or because a
property does not take a value.

What is left are the questions that hosts do not answer.  A run of a parsed script ends in a defect,
or in the error of an integer that is too long to be shown, exactly if it comes to ask one of them
(`Task.AsksInVain`).  To see that, the task is found in which the error of the run arises, and every
kind of task is looked at for what can go wrong in it and in nothing that it starts.
-/

namespace ScopeScript

/-! ## Where errors arise -/

/-- The error of a question without an answer arises where it is asked. -/
theorem Task.AsksInVain.raises {settings : Settings} {m : Machine} {task : Task} {error : Error}
    (asks : task.AsksInVain settings m error) : task.Raises settings m error where
  fails := asks.fails
  started start := by cases asks <;> cases start

namespace Conduct

open Eval

variable {settings : Settings} {start : HostObjects} {m : Machine} {error : Error}

/-- An error of a task, if it is a stray one, is that of a question without an answer. -/
def Explained (settings : Settings) (m : Machine) (task : Task) (error : Error) : Prop :=
  error.isStray = false ∨ task.AsksInVain settings m error

theorem explained_of_isScript {task : Task} (h : error.isScript = true) :
    Explained settings m task error :=
  .inl (Error.isStray_of_isScript h)

section Tasks

variable {depth : Nat} {s : ScopeId} {node : Node} {nodes : List Node} {log : Array LogEntry}

/-- Behind a value that was used, the run goes on with a usable one. -/
theorem usable_of_evaluateValue (builtIn : settings.BuiltIn)
    (state : (proper settings start).State m log) (fits : (proper settings start).Expression node)
    {description : String} {value : Value} {m' : Machine}
    (h : evaluateValue settings (callAt settings depth) s description node m = .ok value m') :
    (∃ log', (proper settings start).State m' log') ∧ (proper settings start).Usable value :=
  have lawful : (proper settings start).Lawful := lawful_proper builtIn
  (abreast_evaluateValue lawful (calls_callAt lawful depth) fits _ state).reached h

/-- Where a value is used, an expression without one is the script's fault; what is left to explain
is what is done with the value. -/
theorem explained_afterValue {α : Type} {task : Task} {m' : Machine} {description : String}
    {f : Value → Eval α} (raises : task.Raises settings m error)
    (start : Starts settings task m (.evaluate depth s node) m')
    (fails : (evaluateValue settings (callAt settings depth) s description node >>= f).failure? m' =
      some error)
    (behind : ∀ value m'',
      evaluateValue settings (callAt settings depth) s description node m' = .ok value m'' →
      (f value).failure? m'' = some error → Explained settings m task error) :
    Explained settings m task error := by
  rcases raises.afterValue start fails with rfl | ⟨value, m'', hvalue, fails⟩
  · exact explained_of_isScript rfl
  · exact behind value m'' hvalue fails

theorem explained_path {word : String} {words : List String} (some_ : words ≠ [])
    (reports : settings.ReportsFailures m)
    (raises : (Task.evaluate depth s
      (.identifier (.text word) (.ofWords words))).Raises settings m error) :
    Explained settings m (.evaluate depth s (.identifier (.text word) (.ofWords words))) error := by
  have fails : (evaluate settings (callAt settings depth) s
    (.identifier (.text word) (.ofWords words))).failure? m = some error := raises.fails
  rcases handleTarget_eq s (.text word) m with ⟨target, copy, bound, -⟩ | ⟨other, refused, fault⟩
  · obtain ⟨log, evaluated⟩ := evaluate_path settings (callAt settings depth) some_ bound
    rw [failure?, evaluated] at fails
    cases led : settings.follow m.objects (.text word) target (words.map .text) with
    | error other =>
      rw [led] at fails
      obtain ⟨missing, -, rfl⟩ := reports.read bound led
      cases fails
      exact explained_of_isScript rfl
    | ok value =>
      rw [led, ok_bind] at fails
      cases converted : value.ofHost with
      | ok result =>
        rw [converted] at fails
        cases fails
      | error other =>
        rw [converted] at fails
        cases fails
        rcases Value.ofHost_error_cases converted with ⟨source, rfl⟩ | ⟨rfl, n, rfl, long⟩
        · exact explained_of_isScript rfl
        · exact .inr (.tooLong some_ bound led long)
  · rw [evaluate, Datum.isVoid_ofWords some_, if_neg Bool.false_ne_true, readPath, failure?,
      bind_of_error refused] at fails
    cases fails
    exact explained_of_isScript fault

theorem explained_call {name : Name} (state : (proper settings start).State m log)
    (raises : (Task.evaluate depth s (.call name nodes)).Raises settings m error) :
    Explained settings m (.evaluate depth s (.call name nodes)) error := by
  have fails : (evaluate settings (callAt settings depth) s (.call name nodes)).failure? m =
    some error := raises.fails
  rw [evaluate] at fails
  cases bound : m.scopes.lookup s name with
  | error other =>
    have missing : lookup s name m = .error other m := by rw [lookup_apply, bound]
    rw [failure?, applyFunction, bind_of_error missing] at fails
    cases fails
    rw [Scopes.lookup_error bound]
    exact explained_of_isScript rfl
  | ok value =>
    have found : lookup s name m = .ok value m := by rw [lookup_apply, bound]
    cases value with
    | function home declared =>
      -- a function that comes from a script has words for parameters, so they can be counted
      obtain ⟨words, params⟩ := (state.scopes.code code_empty home declared).params trivial
      by_cases count : nodes.length = words.length
      · have applicable : Applicable m s name nodes.length home declared :=
          ⟨bound, words.map .text, by rw [params]; rfl, by rw [List.length_map, count]⟩
        rw [failure?, applyFunction_eq applicable] at fails
        rcases failure?_bind_eq_some_iff.mp fails with h | ⟨values, m', hargs, h⟩
        · exact raises.elim (.arguments applicable) h
        · exact raises.elim (.call applicable hargs) h
      · have items : (m.scopes.code home declared).params.items? = some (words.map .text) := by
          rw [params]
          rfl
        rw [applyFunction, failure?_bind_of_ok found] at fails
        dsimp only at fails
        rw [failure?, get_bind_apply, items] at fails
        dsimp only at fails
        rw [List.length_map, if_neg count] at fails
        cases fails
        exact explained_of_isScript rfl
    | _ =>
      rw [applyFunction, failure?_bind_of_ok found] at fails
      cases fails
      exact explained_of_isScript rfl

theorem explained_evaluate (builtIn : settings.BuiltIn)
    (moment : (proper settings start).Moment (.evaluate depth s node) m)
    (reports : settings.ReportsFailures m)
    (raises : (Task.evaluate depth s node).Raises settings m error) :
    Explained settings m (.evaluate depth s node) error := by
  obtain ⟨⟨log, state⟩, fits⟩ := moment
  change (proper settings start).Expression node at fits
  have fails : (evaluate settings (callAt settings depth) s node).failure? m = some error :=
    raises.fails
  cases node with
  | literal value => cases fails
  | identifier name properties =>
    obtain ⟨word, words, rfl, rfl⟩ := Datum.exists_words (fits.wellFormed trivial)
    by_cases none : words = []
    · obtain rfl := none
      exact explained_of_isScript (faultsOnly_lookup s (.text word) m error fails)
    · exact explained_path none reports raises
  | call name nodes => exact explained_call state raises
  | unary op operand =>
    rw [evaluate_unary] at fails
    refine explained_afterValue raises .operand fails fun value m' hvalue fails => .inl ?_
    have usable := (usable_of_evaluateValue builtIn state fits.operand hvalue).2
    exact UnaryOp.apply_error (fits.operator trivial) usable.fine (failure?_ofExcept.mp fails)
  | binary op left right =>
    rw [evaluate_binary] at fails
    refine explained_afterValue raises .left fails fun a m₁ ha fails => ?_
    obtain ⟨⟨log₁, state₁⟩, usableA⟩ := usable_of_evaluateValue builtIn state fits.left ha
    refine explained_afterValue raises (.right ha) fails fun b m₂ hb fails => ?_
    have usableB := (usable_of_evaluateValue builtIn state₁ fits.right hb).2
    rw [failure?, get_bind_apply] at fails
    exact explained_of_isScript (BinaryOp.apply_fault (fits.binaryOperator trivial)
      usableA.fine usableB.fine (failure?_ofExcept.mp fails))
  | _ => exact absurd trivial fits.not_strict

theorem explained_arguments {name : Name} {index : Nat}
    (raises : (Task.arguments depth s name index nodes).Raises settings m error) :
    Explained settings m (.arguments depth s name index nodes) error := by
  have fails : (evaluateArguments settings (callAt settings depth) s name index nodes).failure? m =
    some error := raises.fails
  cases nodes with
  | nil => cases fails
  | cons node rest =>
    rw [evaluateArguments_cons] at fails
    refine explained_afterValue raises .argument fails fun value m' hvalue fails => ?_
    rcases failure?_bind_eq_some_iff.mp fails with h | ⟨values, m'', -, h⟩
    · exact raises.elim (.moreArguments hvalue) h
    · cases h

theorem explained_callAt {home : ScopeId} {name : Name} {code : ScopeScript.Code}
    {values : List Value}
    (raises : (Task.call depth home name code values).Raises settings m error) :
    Explained settings m (.call depth home name code values) error := by
  have fails : (callAt settings depth home name code values).failure? m = some error := raises.fails
  cases depth with
  | zero =>
    cases fails
    exact .inl rfl
  | succ depth =>
    rw [callAt_succ] at fails
    rcases failure?_bind_eq_some_iff.mp fails with h | ⟨s, m', entered, fails⟩
    · exact explained_of_isScript (faultsOnly_enter settings home name code values m error h)
    · rcases failure?_bind_eq_some_iff.mp fails with h | ⟨completion, m'', -, h⟩
      · exact raises.elim (.enter entered) h
      · cases h

theorem explained_execute (builtIn : settings.BuiltIn)
    (moment : (proper settings start).Moment (.execute depth s node) m)
    (raises : (Task.execute depth s node).Raises settings m error) :
    Explained settings m (.execute depth s node) error := by
  obtain ⟨⟨log, state⟩, fits⟩ := moment
  change (proper settings start).Statement node at fits
  have fails : (execute settings (callAt settings depth) s node).failure? m = some error :=
    raises.fails
  cases node with
  | block nodes => exact raises.elim .statements fails
  | declaration isConst name initial =>
    rw [execute, executeDeclaration] at fails
    refine explained_afterValue raises .initial fails fun value m' hvalue fails => ?_
    refine explained_of_isScript (FaultsOnly.bind ?_ (fun _ => ?_) m' error fails)
    · exact faultsOnly_declare s name value isConst
    · exact (faultsOnly_emit settings _).bind fun _ => faultsOnly_pure _
  | assignment target value =>
    have ok := fits.target trivial
    cases target with
    | identifier name properties =>
      obtain ⟨word, words, rfl, rfl⟩ := Datum.exists_words ok
      have route := Node.route?_words word words
      rw [execute_assignment route, executeRoute] at fails
      refine explained_afterValue raises (.assigned route) fails fun value m' hvalue fails => ?_
      have logged := fun path value => (faultsOnly_emit settings (.assigned path value)).bind
        fun _ => faultsOnly_pure Completion.normal
      cases words with
      | nil =>
        refine explained_of_isScript (FaultsOnly.bind ?_ (fun _ => logged _ _) m' error fails)
        exact faultsOnly_assign s (.text word) value
      | cons property rest =>
        rcases failure?_bind_eq_some_iff.mp fails with h | ⟨_, m'', -, h⟩
        · exact raises.elim (.write route hvalue) h
        · exact explained_of_isScript (logged _ _ m'' error h)
    | _ => exact absurd ok Bool.false_ne_true
  | function name params body =>
    rw [execute, executeFunction] at fails
    obtain ⟨words, hwords⟩ := fits.code.params trivial
    obtain rfl : params = .ofWords words := hwords
    refine explained_of_isScript (FaultsOnly.bind ?_ (fun _ => ?_) m error fails)
    · exact faultsOnly_declareFunction s name _
    · rw [show (Datum.ofWords words).items? = some (words.map .text) from rfl, Option.bind_some,
        Datum.words?_map_text]
      exact (faultsOnly_emit settings _).bind fun _ => faultsOnly_pure _
  | giveBack value =>
    by_cases none : value = .absent
    · rw [none] at fails
      cases fails
    · rw [execute_giveBack none] at fails
      exact explained_afterValue raises (.returned none) fails fun value m' hvalue fails =>
        by cases fails
  | callStatement inner =>
    rw [execute] at fails
    rcases failure?_bind_eq_some_iff.mp fails with h | ⟨value, m', -, h⟩
    · exact raises.elim .called h
    · cases h
  | choice condition thenBlock elseBlock =>
    rw [execute] at fails
    refine explained_afterValue raises .condition fails fun value m' hvalue fails => ?_
    have usable := (usable_of_evaluateValue builtIn state fits.condition hvalue).2
    obtain ⟨truth, htruth⟩ := Value.isTruthy_of_not_isSentinel usable.noSentinel
    -- between the condition and the branch its truth is logged, which does not fail
    obtain ⟨log', hemit⟩ := emit_apply settings (.decided truth) m'
    rw [htruth] at fails
    change (emit settings (.decided truth) >>= _).failure? m' = _ at fails
    rw [failure?_bind_of_ok hemit] at fails
    have branch : (executeBranch settings (callAt settings depth) s
        (if truth then thenBlock else elseBlock)).failure? { m' with log := log' } =
          some error := by
      cases truth <;> exact fails
    exact raises.elim (.chosen hvalue htruth hemit) branch
  | _ => exact absurd trivial fits.not_strict

theorem explained_branch (fits : (proper settings start).Branch node)
    (raises : (Task.branch depth s node).Raises settings m error) :
    Explained settings m (.branch depth s node) error := by
  have fails : (executeBranch settings (callAt settings depth) s node).failure? m = some error :=
    raises.fails
  cases node with
  | absent => cases fails
  | block nodes =>
    rw [executeBranch] at fails
    rcases failure?_bind_eq_some_iff.mp fails with h | ⟨s', m', entered, h⟩
    · cases h
    · exact raises.elim (.inner entered) h
  | _ => exact absurd trivial fits.not_strict

theorem explained_body (fits : (proper settings start).Body node)
    (raises : (Task.body depth s node).Raises settings m error) :
    Explained settings m (.body depth s node) error := by
  cases node with
  | block nodes => exact raises.elim .body raises.fails
  | _ => exact absurd trivial fits.not_strict

theorem explained_all (raises : (Task.all depth s nodes).Raises settings m error) :
    Explained settings m (.all depth s nodes) error := by
  have fails : (executeAll settings (callAt settings depth) s nodes).failure? m = some error :=
    raises.fails
  cases nodes with
  | nil => cases fails
  | cons node rest =>
    rw [executeAll] at fails
    rcases failure?_bind_eq_some_iff.mp fails with h | ⟨completion, m', executed, h⟩
    · exact raises.elim .first h
    · cases completion with
      | normal => exact raises.elim (.next executed) h
      | returned value => cases h

theorem explained_write {word property : String} {rest : List String} {value : Value}
    (script : value.isScript = true) (reports : settings.ReportsFailures m)
    (raises : (Task.write s word property rest value).Raises settings m error) :
    Explained settings m (.write s word property rest value) error := by
  have fails : (assignPath settings s word property rest value).failure? m = some error :=
    raises.fails
  rw [assignPath] at fails
  rcases handleTarget_eq s (.text word) m with ⟨target, copy, bound, found⟩ | ⟨other, h, fault⟩
  · rw [failure?_bind_of_ok found, failure?, get_bind_apply] at fails
    rcases failure?_bind_eq_some_iff.mp fails with h | ⟨objects, m', written, h⟩
    · rcases reports.write bound script (failure?_ofExcept.mp h) with
        ⟨missing, -, rfl⟩ | rfl | ⟨rfl, reached, last, point, asks⟩
      · exact explained_of_isScript rfl
      · exact explained_of_isScript rfl
      · -- the adapter is asked in a task of its own, so the error arises there and not here
        exact raises.elim (.setProperty found point) (Task.AsksInVain.unchecked asks).fails
    · rcases failure?_bind_eq_some_iff.mp h with h | ⟨_, m'', -, h⟩
      · cases h
      · exact explained_of_isScript (faultsOnly_emit settings _ m'' error h)
  · rw [failure?, bind_of_error h] at fails
    cases fails
    exact explained_of_isScript fault

theorem explained_setProperty {adapter : Adapter} {target value : Value} {property : String}
    (serves : adapter.Serves settings.classes m.objects target) (script : value.isScript = true)
    (raises : (Task.setProperty adapter target property value).Raises settings m error) :
    Explained settings m (.setProperty adapter target property value) error := by
  have fails := raises.fails
  unfold Task.failure? at fails
  dsimp only at fails
  split at fails
  · cases fails
  · rename_i other failed
    obtain rfl : other = error := Option.some.inj fails
    obtain ⟨asks, rfl⟩ := (serves.write_eq_error_iff script).mp failed
    exact .inr (.unchecked asks)

end Tasks

section Hosts

variable (served : settings.Served) (apart : (Host.mk settings.classes start).Apart)

include served apart

/-- What is handed to an adapter is handed to one that serves the target. -/
theorem serves_of_starts {task : Task} {m' : Machine} {adapter : Adapter} {target value : Value}
    {property : String} (moment : (proper settings start).Moment task m)
    (h : Starts settings task m (.setProperty adapter target property value) m') :
    adapter.Serves settings.classes m'.objects target := by
  obtain ⟨⟨log, state⟩, -⟩ := moment
  have now := host_apart apart state.objects
  cases h with
  | @setProperty s word _ _ _ _ first _ _ found point =>
    rcases handleTarget_eq s (.text word) m with ⟨target', copy, bound, found'⟩ | ⟨error, failed, -⟩
    · obtain rfl : target' = first := by
        rw [found] at found'
        cases found'
        rfl
      have outside := (state.scopes.lookup bound).outside.alike state.objects.1
      exact served.serves
        (Settings.held_of_writePoint now.objects now.classes outside point).refers
    · rw [found] at failed
      cases failed

/-- Wherever an error arises during a run, it is explained there. -/
theorem explained_of_reaches {scope : ScopeId} {tree : Node} {first : Machine} {task : Task}
    (moment : (proper settings start).Moment (.execute mostNestedCalls scope tree) first)
    (reached : Reaches settings (.execute mostNestedCalls scope tree) first task m)
    (raises : task.Raises settings m error) : Explained settings m task error := by
  have builtIn := served.builtIn
  have lawful : (proper settings start).Lawful := lawful_proper builtIn
  have now := moment.reaches lawful reached
  have ⟨⟨log, state⟩, fine⟩ := now
  have reports := served.reportsFailures apart state
  cases task with
  | evaluate depth s node => exact explained_evaluate builtIn now reports raises
  | arguments depth s name index nodes => exact explained_arguments raises
  | call depth home name code values => exact explained_callAt raises
  | execute depth s node => exact explained_execute builtIn now raises
  | branch depth s node => exact explained_branch fine raises
  | body depth s node => exact explained_body fine raises
  | all depth s nodes => exact explained_all raises
  | write s word property rest value => exact explained_write fine.fine.script reports raises
  | setProperty adapter target property value =>
    -- an adapter is only asked by a write along a path, and where that leads there is an object
    cases reached with
    | step before start =>
      have serves := serves_of_starts served apart (moment.reaches lawful before) start
      exact explained_setProperty serves fine.fine.script raises

end Hosts

end Conduct

/-- A parsed script, run where there are script values only, functions of scripts, suitable adapters
and a host that is apart, ends in a stray error exactly if it comes to ask something in vain, and in
the error of that.  Whatever it comes to do is well-formed, and failures along property paths are
reported as such.  What cannot be read is reported as well, an integer apart that is too long to be
shown. -/
theorem parsed_scripts_stray_iff_asking_in_vain (settings : Settings) (served : settings.Served)
    (scope : ScopeId) {source : String} {tree : Node} (parsed : parseProgram source = .ok tree)
    {start : Machine} (bound : ∀ value, start.Binds value → value.isScript = true)
    (handles : ∀ target copy, start.Binds (.handle target copy) → target.Outside start.objects)
    (codes : start.WellFormed) (apart : (settings.host start).Apart) :
    (∀ error, error.isStray = true →
      ((Eval.run settings scope tree).failure? start = some error ↔
        ∃ task m, Eval.Reaches settings (.execute mostNestedCalls scope tree) start task m ∧
          task.AsksInVain settings m error)) ∧
    (∀ task m, Eval.Reaches settings (.execute mostNestedCalls scope tree) start task m →
      task.isWellFormed = true ∧ settings.ReportsFailures m) ∧
    (∀ value error, Value.ofHost value = .error error →
      (∃ host, error = .conversion host) ∨ error = .wrongValue) ∧
    (∀ value, Value.ofHost value = .error .wrongValue ↔
      ∃ n, value = .integer n ∧ mostShownDigits < digitCount n.natAbs) ∧
    ∀ code ∈ tree.codes, code.isWellFormed = true := by
  have wellFormed := parseProgram_blockOk parsed
  have lawful : (Conduct.proper settings start.objects).Lawful :=
    Conduct.lawful_proper served.builtIn
  have state := Conduct.state_proper settings bound handles codes apart.objects
  have fits : (Conduct.proper settings start.objects).Statement tree :=
    ⟨fun _ => by simp [wellFormed],
      (Node.isPlain_iff tree).mp (Node.isPlain_of_blockOk wellFormed)⟩
  have first : (Conduct.proper settings start.objects).Moment
      (.execute mostNestedCalls scope tree) start := ⟨⟨_, state⟩, fits⟩
  refine ⟨?_, ?_, ?_, fun _ => Value.ofHost_eq_wrongValue_iff, parseProgram_codes parsed⟩
  · intro error stray
    rw [Eval.failure?_run_eq, Task.failure?_eq_some_iff_raises]
    refine exists₂_congr fun task m => and_congr_right fun reached => ⟨fun raises => ?_, (·.raises)⟩
    rcases Conduct.explained_of_reaches served apart first reached raises with other | asks
    · rw [stray] at other
      cases other
    · exact asks
  · intro task m reached
    obtain ⟨⟨log, now⟩, fine⟩ := first.reaches lawful reached
    exact ⟨fine.isWellFormed trivial, served.reportsFailures apart now⟩
  · intro value error h
    rcases Value.ofHost_error_cases h with conversion | ⟨rfl, -⟩
    · exact .inl conversion
    · exact .inr rfl

/-- The shelf and the dictionary, and a function that writes to them. -/
def storeMachine : Machine :=
  { ringMachine with
    scopes := ⟨#[{
      bindings :=
        [(.text "shelf", ⟨.text "shelf", .handle (.object 0 (.user "Shelf")) 0, false⟩),
         (.text "fill", ⟨.text "fill", .function 0 (.text "fill"), true⟩)]
      functions := [(.text "fill", ⟨.ofWords ["size"], .block [
        .assignment (.identifier (.text "shelf") (.ofWords ["box", "size"]))
          (.identifier (.text "size") (.ofWords []))]⟩)] }]⟩ }

/-- A call, and a property that scripts cannot read. -/
def lookForPlace : Node :=
  .block [
    .callStatement (.call (.text "fill")
      [.unary .not (.literal (.number (.finite ⟨false, 2, 0⟩)))]),
    .giveBack (.identifier (.text "shelf") (.ofWords ["box", "place"]))]

theorem parsed_scripts_stray_iff_asking_in_vain_lookForPlace :
    (ringSettings.Served ∧ (∀ value, storeMachine.Binds value → value.isScript = true) ∧
      (∀ target copy, storeMachine.Binds (.handle target copy) →
        target.Outside storeMachine.objects) ∧
      storeMachine.WellFormed ∧ (ringSettings.host storeMachine).Apart) ∧
    parseProgram "fill(not 2) return shelf.box.place" = .ok lookForPlace ∧
    (Eval.run ringSettings 0 lookForPlace).failure? storeMachine =
      some (.conversion "host.Shelf") ∧
    ∀ task m, Eval.Reaches ringSettings (.execute mostNestedCalls 0 lookForPlace) storeMachine
        task m →
      task.isWellFormed = true ∧ ringSettings.ReportsFailures m ∧
        ∀ error, error.isStray = true → ¬task.AsksInVain ringSettings m error := by
  have served : ringSettings.Served := Settings.served_of_registry rfl (by decide)
  have parsed : parseProgram "fill(not 2) return shelf.box.place" = .ok lookForPlace := rfl
  have binds : ∀ value, storeMachine.Binds value →
      value = .handle (.object 0 (.user "Shelf")) 0 ∨ value = .function 0 (.text "fill") := by
    rintro value ⟨id, entry, hentry, rfl⟩
    match id with
    | 0 =>
      rcases hentry with _ | ⟨_, _ | ⟨_, none⟩⟩
      · exact .inl rfl
      · exact .inr rfl
      · cases none
    | id + 1 => cases hentry
  have shelf : (Value.object 0 (.user "Shelf")).Outside storeMachine.objects := ⟨rfl, _, rfl, rfl⟩
  have box : (Value.object 1 .dict).Outside storeMachine.objects := ⟨rfl, _, rfl, rfl⟩
  have bound : ∀ value, storeMachine.Binds value → value.isScript = true := by
    intro value h
    rcases binds value h with rfl | rfl <;> rfl
  have handles : ∀ target copy, storeMachine.Binds (.handle target copy) →
      target.Outside storeMachine.objects := by
    intro target copy h
    rcases binds _ h with same | same
    · cases same
      exact shelf
    · cases same
  have codes : storeMachine.WellFormed := by
    intro id entry hentry
    match id with
    | 0 =>
      rcases hentry with _ | ⟨_, none⟩
      · decide
      · cases none
    | id + 1 => cases hentry
  have apart : (ringSettings.host storeMachine).Apart := by
    refine ⟨hold_ringMachine box shelf (Value.outside_of_isCommon rfl), ?_⟩
    intro cls hcls
    rw [List.mem_singleton.mp hcls]
    exact ⟨by simp, by simp⟩
  have ends : (Eval.run ringSettings 0 lookForPlace).failure? storeMachine =
      some (.conversion "host.Shelf") := by decide +kernel
  obtain ⟨strays, meets, -⟩ :=
    parsed_scripts_stray_iff_asking_in_vain ringSettings served 0 parsed bound handles codes apart
  refine ⟨⟨served, bound, handles, codes, apart⟩, parsed, ends, fun task m reached => ?_⟩
  refine ⟨(meets task m reached).1, (meets task m reached).2, fun error stray asks => ?_⟩
  have other := (strays error stray).mpr ⟨task, m, reached, asks⟩
  rw [ends] at other
  cases other
  cases stray

/-- A number that is too long to be shown. -/
def longWidth : Int := .ofNat (Nat.pow 10 mostShownDigits)

theorem longWidth_long : mostShownDigits < digitCount longWidth.natAbs := by
  have long : ∀ digits, 0 < digits → digits < digitCount (Int.ofNat (Nat.pow 10 digits)).natAbs :=
    fun _ => lt_digitCount_pow
  exact long mostShownDigits (by decide)

/-- The host of a panel, the shape of which is of a class that cannot be asked for its objects. -/
def panelSettings : Settings where
  classes := [{ name := "Panel", slots := [("shape", .unchecked)] }]

/-- A handle on the panel, which is very wide. -/
def panelMachine : Machine where
  scopes := ⟨#[{
    bindings := [(.text "panel", ⟨.text "panel", .handle (.object 0 (.user "Panel")) 0, false⟩)] }]⟩
  objects := #[{
    cls := .user "Panel"
    attributes := [("shape", .text "round"), ("width", .integer longWidth)] }]
  handles := 1

/-- Makes the panel its own shape. -/
def reshapePanel : Node :=
  .block [.assignment (.identifier (.text "panel") (.ofWords ["shape"]))
    (.identifier (.text "panel") (.ofWords []))]

/-- Reads how wide the panel is. -/
def measurePanel : Node :=
  .block [.giveBack (.identifier (.text "panel") (.ofWords ["width"]))]

/-- Scripts that were parsed, with nothing else but a handle, may end in a defect, and in an error
that is none of those for failures of properties. -/
theorem panel_is_asked_in_vain :
    (panelSettings.Served ∧
      (∀ value, panelMachine.Binds value ↔ value = .handle (.object 0 (.user "Panel")) 0) ∧
      panelMachine.WellFormed ∧ (panelSettings.host panelMachine).Apart) ∧
    (parseProgram "set panel.shape = panel" = .ok reshapePanel ∧
      (Eval.run panelSettings 0 reshapePanel).failure? panelMachine = some .wrongShape ∧
      Error.wrongShape.isDefect = true) ∧
    parseProgram "return panel.width" = .ok measurePanel ∧
      (Eval.run panelSettings 0 measurePanel).failure? panelMachine = some .wrongValue ∧
      ∀ host, Error.wrongValue ≠ .conversion host := by
  have binds : ∀ value, panelMachine.Binds value ↔
      value = .handle (.object 0 (.user "Panel")) 0 := by
    intro value
    constructor
    · rintro ⟨id, entry, hentry, rfl⟩
      cases id with
      | zero => rw [List.mem_singleton.mp hentry]
      | succ id => cases hentry
    · rintro rfl
      exact ⟨0, _, List.mem_singleton_self _, rfl⟩
  have codes : panelMachine.WellFormed := by
    intro id entry hentry
    cases id <;> cases hentry
  have apart : (panelSettings.host panelMachine).Apart := by
    refine ⟨fun id object hobject => ?_, fun cls hcls => ?_⟩
    · cases id with
      | zero =>
        cases hobject
        refine ⟨fun _ none => (by cases none), fun entry hentry => Value.outside_of_isCommon ?_⟩
        rcases hentry with _ | ⟨_, _ | ⟨_, none⟩⟩
        · rfl
        · rfl
        · cases none
      | succ id => simp [panelMachine, Settings.host] at hobject
    · rw [List.mem_singleton.mp hcls]
      exact ⟨by simp, by simp⟩
  have asked : (Task.setProperty .attributes (.object 0 (.user "Panel")) "shape"
      (.handle (.object 0 (.user "Panel")) 0)).AsksInVain panelSettings panelMachine .wrongShape :=
    .unchecked (.own rfl (by decide) rfl rfl)
  have read : (Task.evaluate mostNestedCalls 0
      (.identifier (.text "panel") (.ofWords ["width"]))).AsksInVain panelSettings panelMachine
        .wrongValue :=
    .tooLong (List.cons_ne_nil _ _) rfl rfl longWidth_long
  refine ⟨⟨Settings.served_of_registry rfl (by decide), binds, codes, apart⟩,
    ⟨rfl, ?_, rfl⟩, rfl, ?_, fun _ => by simp⟩
  · rw [Eval.failure?_run_eq]
    exact Eval.Reaches.fails
      (.step (.step (.step (.step .refl .statements) .first) (.write rfl rfl))
        (.setProperty rfl rfl)) asked.fails
  · rw [Eval.failure?_run_eq]
    exact Eval.Reaches.fails
      (.step (.step (.step .refl .statements) .first) (.returned (by simp))) read.fails

end ScopeScript
