import ScopeScript.Proofs.Eval.HostWrites
import ScopeScript.Proofs.Host.Annotations
import ScopeScript.Proofs.Host.References
set_option autoImplicit false

/-!
# Eval: annotations during runs

Whatever a run does, the annotations of host classes stay right.  The adapters of a host need not be
those for attributes and for dictionaries: an object is served by the adapter of its class, and what
other adapters do to other objects does not matter to it.  References have to name objects by the
classes that they have, so that an object is not taken for one of another class.
-/

namespace ScopeScript

variable {settings : Settings} {start : HostObjects}

/-- Writes to an object are checked against the annotations of its class, and none of these is
lost. -/
structure Settings.Checks (settings : Settings) (id : ObjectId) (object : HostObject) : Prop where
  served : settings.registry.adapterFor settings.classes (.object id object.cls) = .attributes
  resolves : settings.classes.Resolves object.cls

/-- What is written, if it is anything that a host gets, satisfies the condition that all values of
an object do. -/
theorem HostObject.WrittenBy.holds {classes : HostClasses} {held : Value → Prop}
    (common : ∀ value, value.isCommon = true → held value) {name : String} {value : Value}
    {adapter : Adapter} {object object' : HostObject}
    (written : object.WrittenBy classes name value adapter object') (exports : value.Exports held)
    (noSentinel : value.isSentinel = false) (holds : object.Holds held) : object'.Holds held := by
  cases written with
  | own readable present writable fits =>
    exact ⟨holds.entries,
      Entries.forall_put holds.attributes (exports.coerce common noSentinel fits)⟩
  | entry dict present fits =>
    exact ⟨Entries.forall_put holds.entries (exports.coerce common noSentinel fits),
      holds.attributes⟩
  | text same =>
    rw [same] at exports
    exact ⟨holds.entries, same ▸ Entries.forall_put holds.attributes exports⟩

/-- The objects have come from those at the start: each has its class, refers to objects that there
are, and has not lost its annotations if they are checked. -/
structure Settings.Evolved (settings : Settings) (start objects : HostObjects) : Prop where
  hold : objects.Hold (Value.Refers start)
  each : ∀ (id : ObjectId) (object : HostObject), start[id]? = some object →
    ∃ object', objects[id]? = some object' ∧ object'.cls = object.cls ∧
      (settings.Checks id object → object.Evolves settings.classes object')

namespace Settings

theorem Evolved.refl (hold : start.Hold (Value.Refers start)) : settings.Evolved start start :=
  ⟨hold, fun _ object hobject => ⟨object, hobject, rfl, fun _ => .refl object⟩⟩

theorem refers_common {value : Value} (common : value.isCommon = true) : value.Refers start := by
  cases value with
  | object id cls => cases common
  | _ => trivial

variable {objects objects' : HostObjects} {value target : Value} {name : String}

/-- One write leads to objects that have come from those at the start as well. -/
theorem Evolved.write (evolved : settings.Evolved start objects) (refers : target.Refers start)
    (exports : value.Exports (Value.Refers start)) (noSentinel : value.isSentinel = false)
    (h : (settings.registry.adapterFor settings.classes target).write settings.classes objects
      target name value = .ok (.stored objects')) : settings.Evolved start objects' := by
  generalize hadapter : settings.registry.adapterFor settings.classes target = adapter at h
  rcases Adapter.write_cases h with ⟨-, rfl⟩ | ⟨id, cls, object, object', rfl, written, changed⟩
  · exact evolved
  · obtain ⟨first, hfirst, rfl⟩ := refers
    obtain ⟨before, hbefore, sameClass, checks⟩ := evolved.each id first hfirst
    rw [changed.before] at hbefore
    cases hbefore
    have cls : object'.cls = object.cls := by cases written <;> rfl
    constructor
    · intro other found hfound
      by_cases same : other = id
      · rw [same, changed.after] at hfound
        cases hfound
        exact written.holds (fun _ => refers_common) exports noSentinel
          (evolved.hold id object changed.before)
      · rw [changed.others other same] at hfound
        exact evolved.hold other found hfound
    · intro other found hfound
      by_cases same : other = id
      · rw [same, hfirst] at hfound
        cases hfound
        refine ⟨object', same ▸ changed.after, cls.trans sameClass, fun checked => ?_⟩
        rw [same] at checked
        rw [checked.served] at hadapter
        subst hadapter
        exact (checks checked).trans (written.evolves (sameClass ▸ checked.resolves))
      · rw [changed.others other same]
        exact evolved.each other found hfound

end Settings

namespace Conduct

theorem lawful_evolved (all : ∀ cls ∈ settings.classes, cls.Holds (Value.Refers start)) :
    (exporting settings (Value.Refers start) (settings.Evolved start)).Lawful := by
  refine lawful_exporting (fun _ => Settings.refers_common) ?_
  intro before after owner path target copy property rest value evolved exports usable h
  obtain ⟨leading, last, reached, -, follows, written⟩ := Settings.writePath_cases h
  exact evolved.write (Settings.held_of_follow evolved.hold all exports follows) usable.fine
    usable.noSentinel written

end Conduct

/-- The values bound in scopes, and the literals of functions, name objects by their classes. -/
def Machine.RefersSoundly (m : Machine) : Prop :=
  m.scopes.Holding (Value.Exports (Value.Refers m.objects))
    fun code => code.body.EveryLiteral (Value.Exports (Value.Refers m.objects))

/-- Every state that a run comes through has objects that have come from those at the start. -/
theorem Eval.Passes.evolved {scope : ScopeId} {tree : Node} {start m : Machine}
    (passes : Eval.Passes settings scope tree start m) (sound : (settings.host start).Sound)
    (scopes : start.RefersSoundly)
    (literals : tree.EveryLiteral (Value.Exports (Value.Refers start.objects))) :
    settings.Evolved start.objects m.objects := by
  have lawful := Conduct.lawful_evolved sound.classes
  have state : (Conduct.exporting settings (Value.Refers start.objects)
      (settings.Evolved start.objects)).State start #[] := by
    refine ⟨⟨scopes.values, fun id entry hentry => ?_⟩, .refl sound.objects, trivial⟩
    exact ⟨False.elim, scopes.codes id entry hentry⟩
  obtain ⟨log, kept⟩ := Conduct.state_of_passes lawful ⟨False.elim, literals⟩ state passes
  exact kept.objects

/-! ## Single writes -/

/-- A successful write to an object that checks what is written has stored the value in full. -/
theorem Settings.Checks.stores {objects objects' : HostObjects} {id : ObjectId}
    {object : HostObject} (checks : settings.Checks id object)
    (hobject : objects[id]? = some object) {name : String} {value : Value}
    (h : (settings.registry.adapterFor settings.classes (.object id object.cls)).write
      settings.classes objects (.object id object.cls) name value = .ok (.stored objects')) :
    ∃ object', HostObjects.ChangedAt id object object' objects objects' ∧
      object.Stores settings.classes name value object' := by
  rw [checks.served] at h
  rcases Adapter.write_cases h with ⟨other, -⟩ | ⟨id', cls, before, object', same, written, changed⟩
  · cases other
  · cases same
    have : before = object := Option.some.inj (changed.before.symm.trans hobject)
    subst this
    exact ⟨object', changed, written.stores checks.resolves⟩

/-- A number that is no integer is refused where an integer is asked for. -/
theorem Settings.Checks.refuses {objects : HostObjects} {id : ObjectId} {object : HostObject}
    (checks : settings.Checks id object) (hobject : objects[id]? = some object) {name : String}
    (readable : Adapter.isPublic name = true)
    (present : (object.attribute? settings.classes name).isSome = true)
    (asked : settings.classes.annotation? object.cls name = some .integer) {d : Decimal}
    (fraction : ∀ n : Int, d.value ≠ n) (owner path : String) :
    settings.writeProperty objects owner path (.object id object.cls) name (.number (.finite d)) =
      .error (.propertyType path "Number") := by
  have found : objects.get? (.object id object.cls) = some object := hobject
  have rejected : Adapter.attributes.write settings.classes objects (.object id object.cls) name
      (.number (.finite d)) = .ok .rejected := by
    simp only [Adapter.write, found, readable, present, Bool.and_self, if_true,
      Adapter.writeAttribute, HostClasses.slotType?_eq checks.resolves, asked,
      Value.coerce_fraction fraction]
    rfl
  rw [writeProperty, checks.served, rejected]
  rfl

/-- Annotations of host classes are kept.  An object that checks what is written to it has right
annotations in every state of a run if it had them at the start, and its attributes with annotations
that are no classes, or that cannot be asked, never change.  Every write that succeeds stores the
value in full, in the one attribute that it is for; a fraction is refused where an integer is asked
for. -/
theorem annotations_are_kept (settings : Settings) :
    (∀ (scope : ScopeId) (tree : Node) (start m : Machine), (settings.host start).Sound →
      start.RefersSoundly →
      tree.EveryLiteral (Value.Exports (Value.Refers start.objects)) →
      Eval.Passes settings scope tree start m →
      ∀ (id : ObjectId) (object : HostObject), start.objects[id]? = some object →
        settings.Checks id object →
        ∃ object', m.objects[id]? = some object' ∧ object.Evolves settings.classes object') ∧
    (∀ (scope : ScopeId) (name property : String) (rest : List String) (value : Value)
        (m m' : Machine),
      Eval.assignPath settings scope name property rest value m = .ok () m' →
      ∃ target copy leading last reached,
        m.scopes.lookup scope (.text name) = .ok (.handle target copy) ∧
        property :: rest = leading ++ [last] ∧
        settings.follow m.objects (.text name) target (leading.map .text) = .ok reached ∧
        ∀ (id : ObjectId) (object : HostObject), m.objects[id]? = some object →
          reached = .object id object.cls → settings.Checks id object →
          ∃ object', HostObjects.ChangedAt id object object' m.objects m'.objects ∧
            object.Stores settings.classes last value object') ∧
    ∀ (objects : HostObjects) (id : ObjectId) (object : HostObject) (name : String) (d : Decimal)
        (owner path : String),
      objects[id]? = some object → settings.Checks id object → Adapter.isPublic name = true →
      (object.attribute? settings.classes name).isSome = true →
      settings.classes.annotation? object.cls name = some .integer →
      (∀ n : Int, d.value ≠ n) →
      settings.writeProperty objects owner path (.object id object.cls) name
        (.number (.finite d)) = .error (.propertyType path "Number") := by
  refine ⟨?_, ?_, ?_⟩
  · intro scope tree start m sound scopes literals passes id object hobject checks
    obtain ⟨object', hobject', -, evolves⟩ :=
      (passes.evolved sound scopes literals).each id object hobject
    exact ⟨object', hobject', evolves checks⟩
  · intro scope name property rest value m m' h
    rcases Eval.assignPath_eq settings scope name property rest value m with
      ⟨target, copy, after, bound, ends, written, -, -⟩ | ⟨error, fails⟩
    · obtain ⟨rfl⟩ : after = m' := by
        rw [h] at ends
        cases ends
        rfl
      obtain ⟨leading, last, reached, hnames, follows, stored⟩ := Settings.writePath_cases written
      refine ⟨target, copy, leading, last, reached, bound, hnames, follows, ?_⟩
      rintro id object hobject rfl checks
      exact checks.stores hobject stored
    · rw [h] at fails
      cases fails
  · intro objects id object name d owner path hobject checks readable present asked fraction
    exact checks.refuses hobject readable present asked fraction owner path

/-- A window with a whole number, a window and something that is no class. -/
def windowObject : HostObject where
  cls := .user "Window"
  attributes :=
    [("width", .integer 3), ("owner", .object 0 (.user "Window")), ("tags", .text "new")]

/-- The host of the window. -/
def windowSettings : Settings where
  classes := [{
    name := "Window"
    slots := [("width", .integer), ("owner", .instanceOf "Window"), ("tags", .generic)] }]

/-- A handle on the window, which is its own owner. -/
def windowMachine : Machine where
  scopes := ⟨#[{
    bindings :=
      [(.text "window", ⟨.text "window", .handle (.object 0 (.user "Window")) 0, false⟩)] }]⟩
  objects := #[windowObject]
  handles := 1

/-- Writes a number that is an integer, and then fails to write one that is none. -/
def resizeWindow : Node :=
  .block [
    .assignment (.identifier (.text "window") (.ofWords ["owner", "width"]))
      (.literal (.number (.finite ⟨false, 40, -1⟩))),
    .assignment (.identifier (.text "window") (.ofWords ["width"]))
      (.literal (.number (.finite ⟨false, 25, -1⟩)))]

theorem annotations_are_kept_resizeWindow :
    (windowSettings.Checks 0 windowObject ∧ windowObject.Annotated windowSettings.classes) ∧
    (∃ after, Eval.run windowSettings 0 resizeWindow windowMachine =
      .error (.propertyType "window.width" "Number") after ∧
      (after.objects[0]?).map (·.attributes) = some [("width", .integer 4),
        ("owner", .object 0 (.user "Window")), ("tags", .text "new")]) ∧
    ∃ object', ((Eval.run windowSettings 0 resizeWindow).leaves windowMachine).objects[0]? =
        some object' ∧ object'.Annotated windowSettings.classes := by
  have checks : windowSettings.Checks 0 windowObject := by
    refine ⟨by decide, ?_⟩
    intro base hbase slot hslot
    rw [List.mem_singleton.mp hbase] at hslot
    simp only [List.mem_cons, List.not_mem_nil, or_false] at hslot
    rcases hslot with rfl | rfl | rfl <;> simp
  have annotated : windowObject.Annotated windowSettings.classes := by
    intro name type value asked held
    have listed : (name, type) ∈ [("width", SlotType.integer), ("owner", .instanceOf "Window"),
        ("tags", .generic)] := by
      obtain ⟨base, hbase, found⟩ := List.exists_of_findSome?_eq_some asked
      rw [List.mem_singleton.mp hbase] at found
      obtain ⟨before, behind, split, -⟩ := List.lookup_eq_some_iff.mp found
      have member : (name, type) ∈ before ++ (name, type) :: behind := by simp
      rw [← split] at member
      exact member
    simp only [List.mem_cons, List.not_mem_nil, or_false, Prod.mk.injEq] at listed
    rcases listed with ⟨rfl, rfl⟩ | ⟨rfl, rfl⟩ | ⟨rfl, rfl⟩
    · cases held
      exact ⟨_, rfl⟩
    · cases held
      exact ⟨_, _, rfl, by decide⟩
    · trivial
  have window : (Value.object 0 (.user "Window")).Refers windowMachine.objects := ⟨_, rfl, rfl⟩
  have sound : (windowSettings.host windowMachine).Sound := by
    constructor
    · intro id object hobject
      cases id with
      | zero =>
        obtain rfl : windowObject = object := Option.some.inj hobject
        refine ⟨fun entry hentry => (by cases hentry), fun entry hentry => ?_⟩
        rcases hentry with _ | ⟨_, _ | ⟨_, _ | ⟨_, none⟩⟩⟩
        · trivial
        · exact window
        · trivial
        · cases none
      | succ id => simp [windowMachine, Settings.host] at hobject
    · intro cls hcls
      rw [List.mem_singleton.mp hcls]
      exact ⟨by simp, by simp⟩
  have scopes : windowMachine.RefersSoundly := by
    constructor
    · intro id entry hentry
      cases id with
      | zero =>
        rcases hentry with _ | ⟨_, none⟩
        · exact window
        · cases none
      | succ id => simp [windowMachine, Scopes.get] at hentry
    · intro id entry hentry
      cases id with
      | zero => simp [windowMachine, Scopes.get] at hentry
      | succ id => simp [windowMachine, Scopes.get] at hentry
  have literals :
      resizeWindow.EveryLiteral (Value.Exports (Value.Refers windowMachine.objects)) := by
    simp [Node.EveryLiteral, resizeWindow, Node.literals, Node.literalsIn, Value.Exports,
      Value.toHost, Value.Refers]
  obtain ⟨object', hobject', evolves⟩ := (annotations_are_kept windowSettings).1 0 resizeWindow
    windowMachine _ sound scopes literals (.inl rfl) 0 windowObject rfl checks
  exact ⟨⟨checks, annotated⟩, ⟨_, rfl, rfl⟩, object', hobject', evolves.annotated annotated⟩

end ScopeScript
