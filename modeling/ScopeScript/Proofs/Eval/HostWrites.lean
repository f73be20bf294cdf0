import ScopeScript.Proofs.Eval.ConductRun
import ScopeScript.Proofs.Eval.Operator
import ScopeScript.Proofs.Host.Slots
set_option autoImplicit false

/-!
# Eval: what scripts do to host objects

Writing a property changes one slot of one object or, if it fails, nothing.  It is all that scripts
do to host objects, so whatever a run does on the way, every object keeps its class, its entries and
its readable properties, and holds nothing that is the interpreter's own: functions stay inside, a
handle is written as what it stands for, and a sentinel is refused before.
-/

namespace ScopeScript

/-! ## Values of hosts -/

namespace Value

mutual

/-- Whether a value is a host's own and no function, handle or sentinel; one that is `deep` has none
of them in a list either. -/
def isHost (deep : Bool) : Value → Bool
  | .function _ _ | .handle _ _ | .sentinel _ => false
  | .list items _ => !deep || areHost deep items
  | _ => true

/-- Whether all values are a host's own. -/
def areHost (deep : Bool) : List Value → Bool
  | [] => true
  | value :: rest => isHost deep value && areHost deep rest

end

/-- What a host gets of a value, if it gets anything, satisfies a condition. -/
def Exports (held : Value → Prop) : Value → Prop
  | .function _ _ | .sentinel _ => True
  | value => held value.toHost

/-- Whether a value is of a variant that hosts have as well. -/
def isCommon : Value → Bool
  | .boolean _ | .number _ | .text _ | .integer _ => true
  | _ => false

variable {held : Value → Prop}

theorem exports_of_isCommon (common : ∀ value, value.isCommon = true → held value) {value : Value}
    (h : value.isCommon = true) : value.Exports held := by
  have fine := common value h
  cases value with
  | boolean | number | text | integer => exact fine
  | _ => cases h

theorem isCommon_of_isPlain {value : Value} (h : value.isPlain = true) :
    value.isCommon = true := by
  cases value with
  | boolean | number | text => rfl
  | _ => cases h

theorem isCommon_of_isComputed {value : Value} (h : value.isComputed = true) :
    value.isCommon = true := by
  cases value with
  | boolean | number => rfl
  | _ => cases h

/-- What is stored of a value is what a host gets of it. -/
theorem Exports.coerce (common : ∀ value, value.isCommon = true → held value)
    {classes : HostClasses} {slot : Option SlotType} {value stored : Value}
    (exports : value.Exports held) (noSentinel : value.isSentinel = false)
    (h : value.coerce classes slot = .ok (some stored)) : held stored := by
  obtain ⟨noFunction, rfl | ⟨n, rfl⟩⟩ := coerce_cases h
  · cases value with
    | function home name => exact absurd rfl (noFunction home name)
    | sentinel s => cases noSentinel
    | _ => exact exports
  · exact common _ rfl

theorem isHost_of_isCommon (deep : Bool) {value : Value} (h : value.isCommon = true) :
    value.isHost deep = true := by
  cases value with
  | boolean | number | text | integer => rfl
  | _ => cases h

end Value

/-! ## Runs -/

namespace Conduct

/-- A run that leaves host objects of some kind behind; what it exports satisfies a condition. -/
def exporting (settings : Settings) (held : Value → Prop) (objects : HostObjects → Prop) :
    Conduct where
  settings := settings
  level := settings.logLevel
  strict := False
  literal := Value.Exports held
  value := Value.Exports held
  objects := objects
  logs _ _ := True
  error _ := True

/-- Only what is written has to be looked at. -/
theorem lawful_exporting {settings : Settings} {held : Value → Prop}
    {objects : HostObjects → Prop} (common : ∀ value, value.isCommon = true → held value)
    (write : ∀ {before after owner path target copy property rest value}, objects before →
      (Value.handle target copy).Exports held → (exporting settings held objects).Usable value →
      settings.writePath before owner path value target property rest = .ok after →
      objects after) :
    (exporting settings held objects).Lawful where
  script _ _ := trivial
  odd _ _ _ := trivial
  literal _ exports _ := exports
  plain _ plain := Value.exports_of_isCommon common (Value.isCommon_of_isPlain plain)
  function _ _ := trivial
  unary op value _ _ := by
    refine yields_of (fun result h _ => ?_) fun _ _ => trivial
    exact Value.exports_of_isCommon common
      (Value.isCommon_of_isComputed (UnaryOp.isComputed_apply h))
  binary objects op a b _ _ usableA usableB := by
    refine yields_of (fun result h _ => ?_) fun _ _ => trivial
    rcases BinaryOp.apply_result h with rfl | rfl | computed
    · exact usableA.fine
    · exact usableB.fine
    · exact Value.exports_of_isCommon common (Value.isCommon_of_isComputed computed)
  follow _ _ _ _ _ _ _ _ _ _ := trivial
  write before owner path target copy property rest value kept exports usable := by
    split
    · rename_i after h
      exact write kept exports usable h
    · trivial
  logged _ _ _ _ := trivial
  level _ := rfl

/-- A run among host objects that stay like those at the start, and hold what satisfies a
condition. -/
def hosted (settings : Settings) (start : HostObjects) (held : Value → Prop) : Conduct :=
  exporting settings held fun objects => start.Alike settings.classes objects ∧ objects.Hold held

theorem lawful_hosted {settings : Settings} (builtIn : settings.BuiltIn) (start : HostObjects)
    {held : Value → Prop} (common : ∀ value, value.isCommon = true → held value) :
    (hosted settings start held).Lawful := by
  refine lawful_exporting common ?_
  intro before after owner path target copy property rest value kept _ usable h
  obtain ⟨_, _, _, _, _, stored, -, -, hstored, written, -⟩ := Settings.writePath_eq_ok builtIn h
  exact ⟨kept.1.trans written.alike,
    written.hold kept.2 (Value.Exports.coerce common usable.fine usable.noSentinel hstored)⟩

/-- What is known of the host objects in every state that a run comes through. -/
theorem hosted_of_passes {settings : Settings} (builtIn : settings.BuiltIn) (held : Value → Prop)
    (common : ∀ value, value.isCommon = true → held value) {scope : ScopeId} {tree : Node}
    {start m : Machine} (literals : tree.EveryLiteral (Value.Exports held))
    (scopes : start.scopes.Holding (Value.Exports held)
      fun code => code.body.EveryLiteral (Value.Exports held))
    (hold : start.objects.Hold held) (passes : Eval.Passes settings scope tree start m) :
    start.objects.Alike settings.classes m.objects ∧ m.objects.Hold held := by
  have state : (hosted settings start.objects held).State start #[] := by
    refine ⟨⟨scopes.values, fun id entry hentry => ?_⟩, ⟨.refl _, hold⟩, trivial⟩
    exact ⟨False.elim, scopes.codes id entry hentry⟩
  have fits : (hosted settings start.objects held).Statement tree := ⟨False.elim, literals⟩
  obtain ⟨log, kept⟩ :=
    state_of_passes (lawful_hosted builtIn start.objects common) fits state passes
  exact kept.objects

end Conduct

/-! ## Single writes -/

/-- The state `m'` is `m` with what a value becomes in the slot that the properties `names` of
`target` lead to; the log apart, nothing else differs. -/
structure Settings.WritesSlot (settings : Settings) (owner : String) (target : Value)
    (names : List String) (value : Value) (m m' : Machine) : Prop where
  scopes : m'.scopes = m.scopes
  handles : m'.handles = m.handles
  slot : ∃ leading last id cls type? stored, names = leading ++ [last] ∧
    settings.follow m.objects (.text owner) target (leading.map .text) = .ok (.object id cls) ∧
    value.coerce settings.classes type? = .ok (some stored) ∧
    m.objects.WrittenAt settings.classes id last stored m'.objects ∧
    settings.readProperty m'.objects (.text owner) (.object id cls) (.text last) = .ok stored ∧
    ∀ (owner : Name) (other : Value) (name : String),
      (∀ cls, other ≠ .object id cls) ∨ name ≠ last →
        settings.readProperty m'.objects owner other (.text name) =
          settings.readProperty m.objects owner other (.text name)

namespace Eval

variable {settings : Settings} {scope : ScopeId} {name property : String} {rest : List String}
  {value : Value} {m : Machine}

theorem handleTarget_eq (scope : ScopeId) (name : Name) (m : Machine) :
    (∃ target copy, m.scopes.lookup scope name = .ok (.handle target copy) ∧
      handleTarget scope name m = .ok target m) ∨
    ∃ error, handleTarget scope name m = .error error m ∧ error.isScript = true := by
  unfold handleTarget
  rw [bind_apply, lookup_apply]
  cases found : m.scopes.lookup scope name with
  | error error => exact .inr ⟨error, rfl, by rw [Scopes.lookup_error found]; rfl⟩
  | ok bound =>
    cases bound with
    | handle target copy => exact .inl ⟨target, copy, rfl, rfl⟩
    | _ => exact .inr ⟨_, rfl, rfl⟩

/-- Writing a property writes along its path, or fails and changes nothing at all. -/
theorem assignPath_eq (settings : Settings) (scope : ScopeId) (name property : String)
    (rest : List String) (value : Value) (m : Machine) :
    (∃ target copy m', m.scopes.lookup scope (.text name) = .ok (.handle target copy) ∧
      assignPath settings scope name property rest value m = .ok () m' ∧
      settings.writePath m.objects name (Node.path name (property :: rest)) value target property
        rest = .ok m'.objects ∧ m'.scopes = m.scopes ∧ m'.handles = m.handles) ∨
    ∃ error, assignPath settings scope name property rest value m = .error error m := by
  unfold assignPath
  rcases handleTarget_eq scope (.text name) m with ⟨target, copy, bound, htarget⟩ | ⟨error, h, -⟩
  · rw [bind_of_ok htarget, get_bind_apply]
    cases h : settings.writePath m.objects name (Node.path name (property :: rest)) value target
      property rest with
    | error error => exact .inr ⟨error, rfl⟩
    | ok objects =>
      obtain ⟨log, hlog⟩ := emit_apply settings
        (.propertyWritten (Node.path name (property :: rest))) { m with objects := objects }
      exact .inl ⟨target, copy, { m with objects := objects, log := log }, bound, hlog, h, rfl, rfl⟩
  · exact .inr ⟨error, bind_of_error h _⟩

/-- Writing a property writes one slot, or fails and changes nothing at all. -/
theorem assignPath_cases (builtIn : settings.BuiltIn) :
    (∃ target copy m', m.scopes.lookup scope (.text name) = .ok (.handle target copy) ∧
      assignPath settings scope name property rest value m = .ok () m' ∧
      settings.WritesSlot name target (property :: rest) value m m') ∨
    ∃ error, assignPath settings scope name property rest value m = .error error m := by
  rcases assignPath_eq settings scope name property rest value m with
    ⟨target, copy, m', bound, ends, hwritten, scopes, handles⟩ | fails
  · obtain ⟨leading, last, id, cls, type?, stored, hnames, follows, hstored, written, read⟩ :=
      Settings.writePath_eq_ok builtIn hwritten
    refine .inl ⟨target, copy, m', bound, ends, scopes, handles, leading, last, id, cls, type?,
      stored, hnames, follows, hstored, written, read, ?_⟩
    intro owner other name apart
    exact Settings.readProperty_of_writtenAt builtIn written owner apart
  · exact .inr fails

end Eval

/-- With the adapters for attributes and for dictionaries, writing a property changes the one slot
that its path leads to, or fails and changes nothing.  In all states of a run the host objects are
like those at the start, with the same readable properties; and they hold nothing but what hosts
have themselves, if that was so at the start and handles stand for nothing else. -/
theorem writes_touch_one_slot (settings : Settings) (builtIn : settings.BuiltIn) :
    (∀ (scope : ScopeId) (name property : String) (rest : List String) (value : Value)
        (m : Machine),
      (∃ target copy m', m.scopes.lookup scope (.text name) = .ok (.handle target copy) ∧
        Eval.assignPath settings scope name property rest value m = .ok () m' ∧
        settings.WritesSlot name target (property :: rest) value m m') ∨
      ∃ error, Eval.assignPath settings scope name property rest value m = .error error m) ∧
    (∀ (scope : ScopeId) (tree : Node) (start m : Machine),
      Eval.Passes settings scope tree start m →
      start.objects.Alike settings.classes m.objects ∧
      ∀ (owner : Name) (target : Value) (name : String),
        (settings.readProperty m.objects owner target (.text name)).isOk =
          (settings.readProperty start.objects owner target (.text name)).isOk) ∧
    ∀ (deep : Bool) (scope : ScopeId) (tree : Node) (start m : Machine),
      tree.EveryLiteral (Value.Exports (·.isHost deep = true)) →
      start.scopes.Holding (Value.Exports (·.isHost deep = true))
        (fun code => code.body.EveryLiteral (Value.Exports (·.isHost deep = true))) →
      start.objects.Hold (·.isHost deep = true) →
      Eval.Passes settings scope tree start m → m.objects.Hold (·.isHost deep = true) := by
  refine ⟨fun _ _ _ _ _ _ => Eval.assignPath_cases builtIn, ?_, ?_⟩
  · intro scope tree start m passes
    have every : ∀ value : Value, value.Exports fun _ => True := by
      intro value
      cases value <;> trivial
    have alike := (Conduct.hosted_of_passes builtIn (fun _ => True) (fun _ _ => trivial)
      (fun value _ => every value) ⟨fun _ _ _ => every _, fun _ _ _ value _ => every value⟩
      (fun _ _ _ => ⟨fun _ _ => trivial, fun _ _ => trivial⟩) passes).1
    exact ⟨alike, Settings.isOk_readProperty builtIn alike⟩
  · intro deep scope tree start m literals scopes hold passes
    exact (Conduct.hosted_of_passes builtIn _ (fun _ => Value.isHost_of_isCommon deep) literals
      scopes hold passes).2

/-- A shelf and a dictionary that refer to each other, and a handle on the shelf. -/
def ringMachine : Machine where
  scopes := ⟨#[{
    bindings := [(.text "shelf", ⟨.text "shelf", .handle (.object 0 (.user "Shelf")) 0, false⟩)] }]⟩
  objects := #[
    { cls := .user "Shelf", attributes := [("box", .object 1 .dict)] },
    { cls := .dict, entries := [("place", .object 0 (.user "Shelf")), ("size", .integer 1)] }]
  handles := 1

theorem hold_ringMachine {held : Value → Prop} (box : held (.object 1 .dict))
    (shelf : held (.object 0 (.user "Shelf"))) (size : held (.integer 1)) :
    ringMachine.objects.Hold held := by
  intro id object hobject
  match id with
  | 0 =>
    cases hobject
    exact ⟨by simp [ringMachine], by simpa [ringMachine] using box⟩
  | 1 =>
    cases hobject
    exact ⟨by simp [ringMachine, shelf, size], by simp [ringMachine]⟩
  | id + 2 => simp [ringMachine] at hobject

/-- The host of the shelf. -/
def ringSettings : Settings where
  classes := [{ name := "Shelf" }]

/-- Writes around the circle, and then fails to write what is not there. -/
def writeRing : Node :=
  .block [
    .assignment (.identifier (.text "shelf") (.ofWords ["box", "place", "box", "size"]))
      (.identifier (.text "shelf") (.ofWords [])),
    .assignment (.identifier (.text "shelf") (.ofWords ["box", "colour"]))
      (.literal (.text "red"))]

theorem writes_touch_one_slot_writeRing :
    ringSettings.BuiltIn ∧
    (∃ after, Eval.run ringSettings 0 writeRing ringMachine =
      .error (.noProperty (.text "shelf") (.text "colour")) after ∧
      (after.objects[1]?).map (·.entries) =
        some [("place", .object 0 (.user "Shelf")), ("size", .object 0 (.user "Shelf"))]) ∧
    ((Eval.run ringSettings 0 writeRing).leaves ringMachine).objects.Hold (·.isHost true = true) ∧
    ringMachine.objects.Alike ringSettings.classes
      ((Eval.run ringSettings 0 writeRing).leaves ringMachine).objects ∧
    ∃ target copy m', ringMachine.scopes.lookup 0 (.text "shelf") = .ok (.handle target copy) ∧
      Eval.assignPath ringSettings 0 "shelf" "box" ["size"] (.text "large") ringMachine =
        .ok () m' ∧
      ringSettings.WritesSlot "shelf" target ["box", "size"] (.text "large") ringMachine m' := by
  have builtIn : ringSettings.BuiltIn :=
    Settings.builtIn_of_registry (by decide) (by decide)
  obtain ⟨single, alike, hold⟩ := writes_touch_one_slot ringSettings builtIn
  refine ⟨builtIn, ⟨_, rfl, rfl⟩, ?_, (alike _ _ _ _ (.inl rfl)).1, ?_⟩
  · refine hold true 0 writeRing ringMachine _ ?_ ⟨?_, ?_⟩ ?_ (.inl rfl)
    · simp [Node.EveryLiteral, writeRing, Node.literals, Node.literalsIn, Value.Exports,
        Value.toHost, Value.isHost]
    · intro id entry hentry
      match id with
      | 0 =>
        rcases hentry with _ | ⟨_, none⟩
        · rfl
        · cases none
      | id + 1 => cases hentry
    · intro id entry hentry
      match id with
      | 0 => cases hentry
      | id + 1 => cases hentry
    · exact hold_ringMachine rfl rfl rfl
  · rcases single 0 "shelf" "box" ["size"] (.text "large") ringMachine with done | ⟨error, fails⟩
    · exact done
    · cases fails

end ScopeScript
