import ScopeScript.Proofs.Host.Slots
set_option autoImplicit false

/-!
# Host: references and adapters that suit them

A reference names an object and its class.  Where every reference names an object that there is, by
the class that it has, and every value is served by an adapter that is made for it, a property path
can fail in few ways: a property is missing, or it does not take the value that is written to it.
There is one more: the property is annotated with a class that cannot be asked for its objects, and
a handle is written to it.
-/

namespace ScopeScript

variable {classes : HostClasses} {held : Value → Prop}

/-! ## What is read -/

/-- Every value that a class has for its objects satisfies a condition. -/
structure HostClass.Holds (held : Value → Prop) (cls : HostClass) : Prop where
  defaults : ∀ entry ∈ cls.defaults, held entry.2
  computed : ∀ entry ∈ cls.computed, held entry.2

theorem HostClass.Holds.mono {cls : HostClass} (holds : cls.Holds held) {held' : Value → Prop}
    (h : ∀ value, held value → held' value) : cls.Holds held' :=
  ⟨fun entry hentry => h _ (holds.defaults entry hentry),
    fun entry hentry => h _ (holds.computed entry hentry)⟩

/-- What a class says about an attribute, it has for it. -/
theorem HostClass.Holds.attribute? {cls : HostClass} (holds : cls.Holds held) {name : String}
    {value : Value} (h : cls.attribute? name = some (.default value) ∨
      cls.attribute? name = some (.computed value)) : held value := by
  have listed : ∀ {entries : Entries String Value} {value : Value},
      entries.lookup name = some value → (∀ entry ∈ entries, held entry.2) → held value := by
    intro entries value found all
    obtain ⟨before, behind, split, -⟩ := List.lookup_eq_some_iff.mp found
    exact all (name, value) (by rw [split]; simp)
  unfold HostClass.attribute? at h
  split at h
  · simp at h
  · split at h
    · rename_i found
      simp only [Option.some.injEq, reduceCtorEq, false_or, ClassAttribute.computed.injEq] at h
      exact listed (h ▸ found) holds.computed
    · simp only [Option.map_eq_some_iff, ClassAttribute.default.injEq, reduceCtorEq, and_false,
        exists_false, or_false] at h
      obtain ⟨value, found, rfl⟩ := h
      exact listed found holds.defaults

theorem HostClasses.mem_of_mem_lineage {cls : ClassName} {base : HostClass}
    (h : base ∈ classes.lineage cls) : base ∈ classes := by
  unfold lineage at h
  split at h
  · cases h
  · split at h
    · rename_i found
      rcases List.mem_cons.mp h with rfl | h
      · exact List.mem_of_find?_eq_some found
      · obtain ⟨name, -, found⟩ := List.mem_filterMap.mp h
        exact List.mem_of_find?_eq_some found
    · cases h

/-- The value of an attribute is one that the object or a class holds. -/
theorem HostObject.Holds.attribute? {object : HostObject} (holds : object.Holds held)
    (all : ∀ cls ∈ classes, cls.Holds held) {name : String} {value : Value}
    (h : object.attribute? classes name = some value) : held value := by
  have own : ∀ {value : Value}, object.attributes.lookup name = some value → held value := by
    intro value found
    obtain ⟨before, behind, split, -⟩ := List.lookup_eq_some_iff.mp found
    exact holds.attributes (name, value) (by rw [split]; simp)
  have known : ∀ {value : Value}, classes.attribute? object.cls name = some (.default value) ∨
      classes.attribute? object.cls name = some (.computed value) → held value := by
    intro value said
    have base : ∃ cls ∈ classes, cls.attribute? name = some (.default value) ∨
        cls.attribute? name = some (.computed value) := by
      rcases said with said | said
      · obtain ⟨cls, hcls, found⟩ := List.exists_of_findSome?_eq_some said
        exact ⟨cls, HostClasses.mem_of_mem_lineage hcls, .inl found⟩
      · obtain ⟨cls, hcls, found⟩ := List.exists_of_findSome?_eq_some said
        exact ⟨cls, HostClasses.mem_of_mem_lineage hcls, .inr found⟩
    obtain ⟨cls, hcls, found⟩ := base
    exact (all cls hcls).attribute? found
  unfold HostObject.attribute? at h
  split at h
  · rename_i said
    cases h
    exact known (.inr said)
  · cases h
  · rename_i default said
    cases h
    cases found : object.attributes.lookup name with
    | none => exact known (.inl said)
    | some value => exact own found
  · exact own h

/-- What is read of a host object is held by it or by a class. -/
theorem Adapter.held_of_readWord {objects : HostObjects} (hold : objects.Hold held)
    (all : ∀ cls ∈ classes, cls.Holds held) {adapter : Adapter} {target value : Value}
    {name : String} (h : adapter.readWord classes objects target name = .ok (some value)) :
    held value := by
  unfold readWord at h
  split at h
  · rename_i object hobject
    obtain ⟨id, cls, -, hid⟩ := HostObjects.get?_eq_some hobject
    simp only [Except.ok.injEq] at h
    split at h
    · exact (hold id object hid).attribute? all h
    · cases h
  · cases h
  · rename_i object hobject
    obtain ⟨id, cls, -, hid⟩ := HostObjects.get?_eq_some hobject
    split at h
    · simp only [Except.ok.injEq] at h
      obtain ⟨before, behind, split, -⟩ := List.lookup_eq_some_iff.mp h
      exact (hold id object hid).entries (name, value) (by rw [split]; simp)
    · cases h
  · cases h
  · split at h
    · rename_i own hown
      simp only [Except.ok.injEq] at h
      obtain ⟨before, behind, split, -⟩ := List.lookup_eq_some_iff.mp h
      have listed : (name, value) ∈ own := by
        rw [split]
        simp
      -- what is no object has no attributes
      unfold HostObjects.attributes? at hown
      split at hown
      · cases hown
      · obtain ⟨object, hid, rfl⟩ := Option.map_eq_some_iff.mp hown
        exact (hold _ object hid).attributes (name, value) listed
      all_goals cases hown; try cases listed
    · cases h

namespace Settings

variable {settings : Settings} {objects : HostObjects} {owner : Name} {target value : Value}

theorem held_of_readProperty (hold : objects.Hold held)
    (all : ∀ cls ∈ settings.classes, cls.Holds held) {name : String}
    (h : settings.readProperty objects owner target (.text name) = .ok value) : held value := by
  rw [readProperty_text] at h
  obtain ⟨found, hfound, h⟩ := bind_eq_ok.mp h
  cases found with
  | none => cases h
  | some found =>
    cases h
    exact Adapter.held_of_readWord hold all hfound

/-- A path leads from a value that satisfies a condition to another one. -/
theorem held_of_follow (hold : objects.Hold held)
    (all : ∀ cls ∈ settings.classes, cls.Holds held) {names : List String} (start : held target)
    (h : settings.follow objects owner target (names.map .text) = .ok value) : held value := by
  induction names generalizing target with
  | nil =>
    cases h
    exact start
  | cons name rest ih =>
    obtain ⟨next, hnext, h⟩ := bind_eq_ok.mp h
    exact ih (held_of_readProperty hold all hnext) h

/-- What a path ends at satisfies a condition, if the path starts where it does. -/
theorem held_of_writePoint (hold : objects.Hold held)
    (all : ∀ cls ∈ settings.classes, cls.Holds held) {owner name last : String}
    {rest : List String} {reached : Value} (start : held target)
    (h : settings.writePoint objects owner target name rest = .ok (reached, last)) :
    held reached := by
  induction rest generalizing target name with
  | nil =>
    cases h
    exact start
  | cons next rest ih =>
    obtain ⟨value, hvalue, h⟩ := bind_eq_ok.mp h
    exact ih (held_of_readProperty hold all hvalue) h

end Settings

/-! ## References -/

/-- A reference names an object that there is, by the class that it has. -/
def Value.Refers (objects : HostObjects) : Value → Prop
  | .object id cls => ∃ object, objects[id]? = some object ∧ object.cls = cls
  | _ => True

theorem Value.Refers.alike {objects objects' : HostObjects} {value : Value}
    (refers : value.Refers objects) (alike : objects.Alike classes objects') :
    value.Refers objects' := by
  cases value with
  | object id cls =>
    obtain ⟨object, hobject, rfl⟩ := refers
    rcases alike.get? id with ⟨none, -⟩ | ⟨before, object', some, some', same⟩
    · rw [hobject] at none
      cases none
    · rw [hobject] at some
      cases some
      exact ⟨object', some', same.cls⟩
  | _ => trivial

/-- The references of a host name objects that there are, by their classes. -/
structure Host.Sound (host : Host) : Prop where
  objects : host.objects.Hold (Value.Refers host.objects)
  classes : ∀ cls ∈ host.classes, cls.Holds (Value.Refers host.objects)

/-! ## Classes that are asked -/

theorem SlotType.admits_eq_error_iff {slot : SlotType} {target : Value} {error : Error} :
    slot.admits classes target = .error error ↔ slot = .unchecked ∧ error = .wrongShape := by
  constructor
  · intro h
    unfold admits at h
    split at h <;> cases h
    exact ⟨rfl, rfl⟩
  · rintro ⟨rfl, rfl⟩
    rfl

/-- Scripts compute with numbers that are finite, and whether one is whole can be told; so only a
class that is asked for the target of a handle can fail to answer. -/
theorem Value.coerce_eq_error_iff {value : Value} (script : value.isScript = true)
    {slot : Option SlotType} {error : Error} :
    value.coerce classes slot = .error error ↔
      slot = some .unchecked ∧ (∃ target copy, value = .handle target copy) ∧
        error = .wrongShape := by
  constructor
  · intro h
    unfold coerce at h
    split at h
    all_goals try cases h
    · rename_i n
      cases n with
      | finite d => cases h
      | _ => simp [isScript, Number.isFinite] at script
    · rcases bind_eq_error.mp h with failed | ⟨admitted, -, h⟩
      · obtain ⟨rfl, rfl⟩ := SlotType.admits_eq_error_iff.mp failed
        exact ⟨rfl, ⟨_, _, rfl⟩, rfl⟩
      · cases h
  · rintro ⟨rfl, ⟨target, copy, rfl⟩, rfl⟩
    rfl

/-! ## Suitable adapters -/

/-- Every value is served by the adapter for attributes, or if it is a dictionary by the one for
entries. -/
def Settings.Served (settings : Settings) : Prop :=
  ∀ target, settings.registry.adapterFor settings.classes target = .attributes ∨
    settings.registry.adapterFor settings.classes target = .entries ∧
      ∃ id cls, target = .object id cls ∧ settings.classes.isDict cls = true

/-- The adapter serves the value. -/
def Adapter.Serves (classes : HostClasses) (objects : HostObjects) (target : Value)
    (adapter : Adapter) : Prop :=
  adapter = .attributes ∨ adapter = .entries ∧
    ∃ object, objects.get? target = some object ∧ classes.isDict object.cls = true

namespace Adapter

variable {objects : HostObjects} {target : Value} {adapter : Adapter}

theorem Serves.readWord (serves : adapter.Serves classes objects target) (name : String) :
    ∃ found, adapter.readWord classes objects target name = .ok found := by
  rcases serves with rfl | ⟨rfl, object, hobject, dict⟩
  · unfold Adapter.readWord
    cases objects.get? target with
    | none => exact ⟨_, rfl⟩
    | some object => exact ⟨_, rfl⟩
  · exact ⟨object.entries.lookup name, by simp [Adapter.readWord, hobject, dict]⟩

/-- Writing the value to the property asks a class that cannot be asked: the property is a public
attribute of an object, its annotation is such a class, and the value is a handle. -/
inductive AsksUnchecked (classes : HostClasses) (objects : HostObjects) :
    Adapter → Value → String → Value → Prop
  | own {target handled : Value} {name : String} {copy : Copy} {object : HostObject}
    (found : objects.get? target = some object) (readable : isPublic name = true)
    (present : (object.attribute? classes name).isSome = true)
    (annotated : classes.slotType? object.cls name = some .unchecked) :
    AsksUnchecked classes objects .attributes target name (.handle handled copy)

theorem AsksUnchecked.write_eq {name : String} {value : Value}
    (asks : adapter.AsksUnchecked classes objects target name value) :
    adapter.write classes objects target name value = .error .wrongShape := by
  cases asks with
  | own found readable present annotated =>
    simp only [Adapter.write, found, readable, present, Bool.and_self, if_true, writeAttribute,
      annotated]
    rfl

/-- An adapter that serves a value fails to write a property of it only where a class would have to
be asked that cannot be. -/
theorem Serves.write_eq_error_iff (serves : adapter.Serves classes objects target) {name : String}
    {value : Value} (script : value.isScript = true) {error : Error} :
    adapter.write classes objects target name value = .error error ↔
      adapter.AsksUnchecked classes objects target name value ∧ error = .wrongShape := by
  constructor
  · intro h
    rcases serves with rfl | ⟨rfl, object, hobject, dict⟩
    · unfold Adapter.write at h
      cases found : objects.get? target with
      | none =>
        rw [found] at h
        cases h
      | some object =>
        simp only [found] at h
        split at h
        · rename_i readable
          rw [Bool.and_eq_true] at readable
          rcases bind_eq_error.mp h with failed | ⟨stored, -, h⟩
          · obtain ⟨annotated, ⟨handled, copy, rfl⟩, rfl⟩ :=
              (Value.coerce_eq_error_iff script).mp failed
            exact ⟨.own found readable.1 readable.2 annotated, rfl⟩
          · split at h
            · cases h
            · split at h <;> cases h
        · cases h
    · simp only [Adapter.write, hobject, dict, if_true] at h
      split at h
      · rcases bind_eq_error.mp h with failed | ⟨stored, -, h⟩
        · obtain ⟨annotated, -⟩ := (Value.coerce_eq_error_iff script).mp failed
          cases annotated
        · split at h <;> cases h
      · cases h
  · rintro ⟨asks, rfl⟩
    exact asks.write_eq

end Adapter

namespace Settings

variable {settings : Settings} {objects : HostObjects} {target value : Value} {name : String}

/-- Only dictionaries are registered as such. -/
theorem served_of_registry (fallback : settings.registry.fallback = .attributes)
    (registered : ∀ entry ∈ settings.registry.adapters,
      entry.2 = .attributes ∨ entry = (.cls .dict, .entries)) : settings.Served := by
  intro target
  rcases Registry.adapterFor_cases settings.classes settings.registry target with
    h | ⟨key, hkey, h⟩
  · exact .inl (h.trans fallback)
  · rcases registered _ h with attributes | entries
    · exact .inl attributes
    · simp only [Prod.mk.injEq] at entries
      refine .inr ⟨entries.2, ?_⟩
      rw [entries.1] at hkey
      cases target with
      | object id cls =>
        refine ⟨id, cls, rfl, ?_⟩
        by_cases dict : settings.classes.isDict cls = true
        · exact dict
        · simp [Registry.keys, dict] at hkey
      | _ => simp [Registry.keys] at hkey

theorem Served.builtIn (served : settings.Served) : settings.BuiltIn := by
  intro target
  rcases served target with h | ⟨h, -⟩ <;> simp [h]

theorem Served.serves (served : settings.Served) (refers : target.Refers objects) :
    (settings.registry.adapterFor settings.classes target).Serves settings.classes objects
      target := by
  rcases served target with h | ⟨h, id, cls, rfl, dict⟩
  · exact .inl h
  · obtain ⟨object, hobject, rfl⟩ := refers
    exact .inr ⟨h, object, hobject, dict⟩

theorem Served.readProperty_error (served : settings.Served) (refers : target.Refers objects)
    {owner : Name} {error : Error}
    (h : settings.readProperty objects owner target (.text name) = .error error) :
    error = .noProperty owner (.text name) := by
  obtain ⟨found, hfound⟩ := (served.serves refers).readWord name
  rw [readProperty_text, hfound, ok_bind] at h
  cases found with
  | none =>
    cases h
    rfl
  | some value => cases h

theorem Served.writeProperty_error (served : settings.Served) (refers : target.Refers objects)
    (script : value.isScript = true) {owner path : String} {error : Error}
    (h : settings.writeProperty objects owner path target name value = .error error) :
    error = .noProperty (.text owner) (.text name) ∨ error = .propertyType path value.typeName ∨
      error = .wrongShape ∧ (settings.registry.adapterFor settings.classes target).AsksUnchecked
        settings.classes objects target name value := by
  rcases bind_eq_error.mp h with failed | ⟨written, -, h⟩
  · obtain ⟨asks, rfl⟩ := ((served.serves refers).write_eq_error_iff script).mp failed
    exact .inr (.inr ⟨rfl, asks⟩)
  · cases written with
    | stored objects' => cases h
    | notFound =>
      cases h
      exact .inl rfl
    | rejected =>
      cases h
      exact .inr (.inl rfl)

section Paths

variable (served : settings.Served) (hold : objects.Hold (Value.Refers objects))
  (all : ∀ cls ∈ settings.classes, cls.Holds (Value.Refers objects))

include served hold all

/-- A path that cannot be followed has a property that is missing. -/
theorem Served.follow_error (refers : target.Refers objects) {owner : Name} {names : List String}
    {error : Error}
    (h : settings.follow objects owner target (names.map .text) = .error error) :
    ∃ name ∈ names, error = .noProperty owner (.text name) := by
  induction names generalizing target with
  | nil => cases h
  | cons name rest ih =>
    rw [List.map_cons, follow] at h
    cases hnext : settings.readProperty objects owner target (.text name) with
    | error error' =>
      rw [hnext] at h
      cases h
      exact ⟨name, by simp, served.readProperty_error refers hnext⟩
    | ok next =>
      rw [hnext, ok_bind] at h
      have refers' : next.Refers objects := held_of_readProperty hold all hnext
      obtain ⟨missing, hmissing, herror⟩ := ih refers' h
      exact ⟨missing, by simp [hmissing], herror⟩

/-- What cannot be written along a path is missing on the way, or is not taken at its end, or is a
handle for a property whose class cannot be asked. -/
theorem Served.writePath_error (refers : target.Refers objects) (script : value.isScript = true)
    {owner path : String} {rest : List String} {error : Error}
    (h : settings.writePath objects owner path value target name rest = .error error) :
    (∃ missing ∈ name :: rest, error = .noProperty (.text owner) (.text missing)) ∨
      error = .propertyType path value.typeName ∨
      error = .wrongShape ∧ ∃ reached last,
        settings.writePoint objects owner target name rest = .ok (reached, last) ∧
        (settings.registry.adapterFor settings.classes reached).AsksUnchecked settings.classes
          objects reached last value := by
  induction rest generalizing target name with
  | nil =>
    rcases served.writeProperty_error refers script h with rfl | rfl | ⟨rfl, asks⟩
    · exact .inl ⟨name, by simp, rfl⟩
    · exact .inr (.inl rfl)
    · exact .inr (.inr ⟨rfl, target, name, rfl, asks⟩)
  | cons next rest ih =>
    rw [writePath] at h
    cases hnext : settings.readProperty objects (.text owner) target (.text name) with
    | error error' =>
      rw [hnext] at h
      cases h
      exact .inl ⟨name, by simp, served.readProperty_error refers hnext⟩
    | ok reached =>
      rw [hnext, ok_bind] at h
      have refers' : reached.Refers objects := held_of_readProperty hold all hnext
      rcases ih refers' h with ⟨missing, hmissing, herror⟩ | herror | ⟨herror, last, final, ends⟩
      · exact .inl ⟨missing, List.mem_cons_of_mem _ hmissing, herror⟩
      · exact .inr (.inl herror)
      · refine .inr (.inr ⟨herror, last, final, ?_, ends.2⟩)
        rw [writePoint, hnext, ok_bind]
        exact ends.1

end Paths

end Settings

end ScopeScript
