import ScopeScript.Proofs.Eval.Activity
set_option autoImplicit false

/-!
# Host: slots of objects

A property of a host object is kept in a slot: an attribute of the object itself, or an entry if it
is a dictionary.  Writing a property through an adapter that is made for such objects puts one value
in one slot of one object, and what it puts there is what the value stands for outside scripts.
Which properties can be read does not change by that.

Objects may be shared and refer to each other in circles; a path leads to one of them all the same.
-/

namespace ScopeScript

variable {classes : HostClasses} {name : String} {stored : Value}

/-! ## Entries -/

theorem Entries.mem_put {entries : Entries String Value} {entry : String × Value}
    (h : entry ∈ entries.put name stored) : entry ∈ entries ∨ entry.2 = stored := by
  unfold put at h
  split at h
  · obtain ⟨old, hold, rfl⟩ := List.mem_map.mp h
    split
    · exact .inr rfl
    · exact .inl hold
  · rcases List.mem_append.mp h with old | new
    · exact .inl old
    · rw [List.mem_singleton.mp new]
      exact .inr rfl

theorem Entries.forall_put {entries : Entries String Value} {held : Value → Prop}
    (all : ∀ entry ∈ entries, held entry.2) (fine : held stored) :
    ∀ entry ∈ entries.put name stored, held entry.2 := by
  intro entry hentry
  rcases mem_put hentry with old | new
  · exact all entry old
  · rw [new]
    exact fine

theorem Entries.keys_put {entries : Entries String Value} (present : entries.has name = true) :
    (entries.put name stored).keys = entries.keys := by
  rw [put, if_pos present, keys_change]

theorem Entries.has_eq_of_keys {entries entries' : Entries String Value}
    (h : entries'.keys = entries.keys) : entries'.has name = entries.has name := by
  rw [Bool.eq_iff_iff, has_iff_mem_keys, has_iff_mem_keys, h]

/-! ## One object -/

/-- A value is put in one slot of an object, which can be read and takes values. -/
inductive HostObject.SetAt (classes : HostClasses) (name : String) (stored : Value)
    (object : HostObject) : HostObject → Prop
  | own (present : (object.attribute? classes name).isSome = true)
    (writable : object.isWritable classes name = true) :
    SetAt classes name stored object
      { object with attributes := Entries.put object.attributes name stored }
  | entry (dict : classes.isDict object.cls = true)
    (present : Entries.has object.entries name = true) :
    SetAt classes name stored object
      { object with entries := Entries.put object.entries name stored }

/-- What an adapter makes of an object when it writes a value to a property of it. -/
inductive HostObject.WrittenBy (classes : HostClasses) (name : String) (value : Value)
    (object : HostObject) : Adapter → HostObject → Prop
  | own {stored : Value} (readable : Adapter.isPublic name = true)
    (present : (object.attribute? classes name).isSome = true)
    (writable : object.isWritable classes name = true)
    (fits : value.coerce classes (classes.slotType? object.cls name) = .ok (some stored)) :
    WrittenBy classes name value object .attributes
      { object with attributes := Entries.put object.attributes name stored }
  | entry {stored : Value} (dict : classes.isDict object.cls = true)
    (present : Entries.has object.entries name = true)
    (fits : value.coerce classes none = .ok (some stored)) :
    WrittenBy classes name value object .entries
      { object with entries := Entries.put object.entries name stored }
  | text {s : String} (same : value = .text s) :
    WrittenBy classes name value object .textOnly
      { object with attributes := Entries.put object.attributes name value }

/-- Two objects have the same class, the same entries but for their values, and attributes of the
same names. -/
structure HostObject.Alike (classes : HostClasses) (object object' : HostObject) : Prop where
  cls : object'.cls = object.cls
  keys : Entries.keys object'.entries = Entries.keys object.entries
  attributes : ∀ name,
    (object'.attribute? classes name).isSome = (object.attribute? classes name).isSome

/-- Every value that an object holds satisfies a condition. -/
structure HostObject.Holds (held : Value → Prop) (object : HostObject) : Prop where
  entries : ∀ entry ∈ object.entries, held entry.2
  attributes : ∀ entry ∈ object.attributes, held entry.2

namespace HostObject

variable {object object' : HostObject}

theorem Alike.refl (object : HostObject) : object.Alike classes object :=
  ⟨rfl, rfl, fun _ => rfl⟩

theorem Alike.trans {object'' : HostObject} (h : object.Alike classes object')
    (h' : object'.Alike classes object'') : object.Alike classes object'' :=
  ⟨h'.cls.trans h.cls, h'.keys.trans h.keys, fun name =>
    (h'.attributes name).trans (h.attributes name)⟩

/-- An attribute that can be written is not one that the class computes. -/
theorem attribute?_put (writable : object.isWritable classes name = true) (other : String) :
    HostObject.attribute? classes
        { object with attributes := Entries.put object.attributes name stored } other =
      if other = name then some stored else object.attribute? classes other := by
  have said : ∀ own own' : Entries String Value, own.lookup other = own'.lookup other →
      HostObject.attribute? classes { object with attributes := own } other =
        HostObject.attribute? classes { object with attributes := own' } other := by
    intro own own' same
    simp only [attribute?, same]
  by_cases same : other = name
  · rw [if_pos same, same]
    simp only [isWritable, Bool.and_eq_true] at writable
    unfold attribute?
    simp only [Entries.lookup_put, if_true]
    cases hclass : classes.attribute? object.cls name with
    | none => rfl
    | some known =>
      rw [hclass] at writable
      cases known with
      | default value => rfl
      | computed value => simp at writable
      | failing => simp at writable
  · rw [if_neg same]
    exact said _ object.attributes (by rw [Entries.lookup_put, if_neg same])

theorem SetAt.alike (set : object.SetAt classes name stored object') :
    object.Alike classes object' := by
  cases set with
  | own present writable =>
    refine ⟨rfl, rfl, fun other => ?_⟩
    rw [attribute?_put writable]
    split
    · rename_i same
      rw [same, present]
      rfl
    · rfl
  | entry dict present => exact ⟨rfl, Entries.keys_put present, fun _ => rfl⟩

theorem SetAt.attribute?_other (set : object.SetAt classes name stored object') {other : String}
    (different : other ≠ name) :
    object'.attribute? classes other = object.attribute? classes other := by
  cases set with
  | own present writable => rw [attribute?_put writable, if_neg different]
  | entry dict present => rfl

theorem SetAt.lookup_other (set : object.SetAt classes name stored object') {other : String}
    (different : other ≠ name) : object'.entries.lookup other = object.entries.lookup other := by
  cases set with
  | own present writable => rfl
  | entry dict present => exact (Entries.lookup_put _ _ _ _).trans (if_neg different)

theorem SetAt.holds {held : Value → Prop} (set : object.SetAt classes name stored object')
    (holds : object.Holds held) (fine : held stored) : object'.Holds held := by
  cases set with
  | own => exact ⟨holds.entries, Entries.forall_put holds.attributes fine⟩
  | entry => exact ⟨Entries.forall_put holds.entries fine, holds.attributes⟩

end HostObject

/-! ## All objects -/

namespace HostObjects

variable {objects objects' : HostObjects} {id : ObjectId}

/-- One object has become another one, and all others are as they were. -/
structure ChangedAt (id : ObjectId) (object object' : HostObject)
    (objects objects' : HostObjects) : Prop where
  size : objects'.size = objects.size
  before : objects[id]? = some object
  after : objects'[id]? = some object'
  others : ∀ other, other ≠ id → objects'[other]? = objects[other]?

/-- A value is put in one slot of one object, and all else is as it was. -/
structure WrittenAt (classes : HostClasses) (id : ObjectId) (name : String) (stored : Value)
    (objects objects' : HostObjects) : Prop where
  size : objects'.size = objects.size
  others : ∀ other, other ≠ id → objects'[other]? = objects[other]?
  object : ∃ object object' : HostObject, objects[id]? = some object ∧
    objects'[id]? = some object' ∧ object.SetAt classes name stored object'

/-- There are as many objects as before, and each is like the one that it was. -/
structure Alike (classes : HostClasses) (objects objects' : HostObjects) : Prop where
  size : objects'.size = objects.size
  each : ∀ (id : ObjectId) (object object' : HostObject), objects[id]? = some object →
    objects'[id]? = some object' → object.Alike classes object'

/-- Every value that an object holds satisfies a condition. -/
def Hold (held : Value → Prop) (objects : HostObjects) : Prop :=
  ∀ (id : ObjectId) (object : HostObject), objects[id]? = some object → object.Holds held

theorem Hold.mono {held held' : Value → Prop} (hold : objects.Hold held)
    (h : ∀ value, held value → held' value) : objects.Hold held' := by
  intro id object hobject
  have holds := hold id object hobject
  exact ⟨fun entry hentry => h _ (holds.entries entry hentry),
    fun entry hentry => h _ (holds.attributes entry hentry)⟩

theorem Alike.refl (objects : HostObjects) : objects.Alike classes objects := by
  refine ⟨rfl, fun id object object' h h' => ?_⟩
  rw [h] at h'
  cases h'
  exact .refl object

theorem Alike.get? (alike : objects.Alike classes objects') (id : ObjectId) :
    (objects[id]? = none ∧ objects'[id]? = none) ∨
      ∃ object object', objects[id]? = some object ∧ objects'[id]? = some object' ∧
        object.Alike classes object' := by
  cases h : objects[id]? with
  | none =>
    refine .inl ⟨rfl, ?_⟩
    rw [Array.getElem?_eq_none_iff, alike.size, ← Array.getElem?_eq_none_iff]
    exact h
  | some object =>
    have bound : id < objects'.size := by
      rw [alike.size]
      exact (Array.getElem?_eq_some_iff.mp h).1
    have h' : objects'[id]? = some objects'[id] := Array.getElem?_eq_getElem bound
    exact .inr ⟨object, _, rfl, h', alike.each id object _ h h'⟩

theorem Alike.trans {objects'' : HostObjects} (h : objects.Alike classes objects')
    (h' : objects'.Alike classes objects'') : objects.Alike classes objects'' := by
  refine ⟨h'.size.trans h.size, fun id object object'' first last => ?_⟩
  rcases h.get? id with ⟨none, -⟩ | ⟨before, object', some, middle, alike⟩
  · rw [first] at none
    cases none
  · rw [first] at some
    cases some
    exact alike.trans (h'.each id object' object'' middle last)

theorem WrittenAt.alike (written : objects.WrittenAt classes id name stored objects') :
    objects.Alike classes objects' := by
  refine ⟨written.size, fun other object object' h h' => ?_⟩
  by_cases same : other = id
  · obtain ⟨before, after, hbefore, hafter, set⟩ := written.object
    rw [same, hbefore] at h
    rw [same, hafter] at h'
    cases h
    cases h'
    exact set.alike
  · rw [written.others other same, h] at h'
    cases h'
    exact .refl object

theorem WrittenAt.hold {held : Value → Prop}
    (written : objects.WrittenAt classes id name stored objects') (hold : objects.Hold held)
    (fine : held stored) : objects'.Hold held := by
  intro other object h
  by_cases same : other = id
  · obtain ⟨before, after, hbefore, hafter, set⟩ := written.object
    rw [same, hafter] at h
    cases h
    exact set.holds (hold id before hbefore) fine
  · rw [written.others other same] at h
    exact hold other object h

theorem get?_eq_some {target : Value} {object : HostObject}
    (h : objects.get? target = some object) :
    ∃ id cls, target = .object id cls ∧ objects[id]? = some object := by
  cases target with
  | object id cls => exact ⟨id, cls, rfl, h⟩
  | _ => cases h

theorem changedAt_modify {object : HostObject} (h : objects[id]? = some object)
    (change : HostObject → HostObject) :
    ChangedAt id object (change object) objects (objects.modify id change) := by
  refine ⟨Array.size_modify, h, ?_, ?_⟩
  · rw [Array.getElem?_modify, if_pos rfl, h]
    rfl
  · intro other apart
    rw [Array.getElem?_modify, if_neg (Ne.symm apart)]

theorem changedAt_putAttribute {cls : ClassName} {object : HostObject} {value : Value}
    (h : objects[id]? = some object) :
    ChangedAt id object { object with attributes := Entries.put object.attributes name value }
      objects (objects.putAttribute (.object id cls) name value) :=
  changedAt_modify h fun object =>
    { object with attributes := Entries.put object.attributes name value }

theorem changedAt_putEntry {cls : ClassName} {object : HostObject} {value : Value}
    (h : objects[id]? = some object) :
    ChangedAt id object { object with entries := Entries.put object.entries name value }
      objects (objects.putEntry (.object id cls) name value) :=
  changedAt_modify h fun object =>
    { object with entries := Entries.put object.entries name value }

/-- Changing one object is writing at it if that puts a value in one of its slots. -/
theorem ChangedAt.writtenAt {object object' : HostObject}
    (changed : ChangedAt id object object' objects objects')
    (set : object.SetAt classes name stored object') :
    objects.WrittenAt classes id name stored objects' :=
  ⟨changed.size, changed.others, object, object', changed.before, changed.after, set⟩

end HostObjects

/-! ## Adapters -/

/-- A function fits nowhere.  Anything else becomes what it stands for outside, or an integer. -/
theorem Value.coerce_cases {value : Value} {slot : Option SlotType}
    (h : value.coerce classes slot = .ok (some stored)) :
    (∀ home name, value ≠ .function home name) ∧
      (stored = value.toHost ∨ ∃ n, stored = .integer n) := by
  unfold Value.coerce at h
  split at h
  · cases h
  all_goals try (cases h; exact ⟨by simp_all, .inl rfl⟩)
  · obtain ⟨integer, hinteger, h⟩ := bind_eq_ok.mp h
    cases integer with
    | none => cases h
    | some n =>
      cases h
      exact ⟨by simp, .inr ⟨n, rfl⟩⟩
  · obtain ⟨admitted, -, h⟩ := bind_eq_ok.mp h
    split at h
    · cases h
      exact ⟨by simp, .inl rfl⟩
    · cases h
  · cases h

namespace Adapter

variable {objects objects' : HostObjects} {adapter : Adapter} {target value : Value}

/-- All that an adapter can do: what it takes for an object and is none stays as it is, and an
object is changed in its own way. -/
theorem write_cases (h : adapter.write classes objects target name value = .ok (.stored objects')) :
    (adapter = .textOnly ∧ objects' = objects) ∨ ∃ id cls object object', target = .object id cls ∧
      object.WrittenBy classes name value adapter object' ∧
      HostObjects.ChangedAt id object object' objects objects' := by
  unfold write at h
  split at h
  · rename_i object hobject
    obtain ⟨id, cls, rfl, hid⟩ := HostObjects.get?_eq_some hobject
    split at h
    · rename_i readable
      rw [Bool.and_eq_true] at readable
      obtain ⟨native, hnative, h⟩ := bind_eq_ok.mp h
      split at h
      · cases h
      · split at h
        · rename_i stored writable
          cases h
          exact .inr ⟨id, cls, object, _, rfl, .own readable.1 readable.2 writable hnative,
            HostObjects.changedAt_putAttribute hid⟩
        · cases h
    · cases h
  · cases h
  · rename_i object hobject
    obtain ⟨id, cls, rfl, hid⟩ := HostObjects.get?_eq_some hobject
    split at h
    · rename_i dict
      split at h
      · rename_i present
        obtain ⟨native, hnative, h⟩ := bind_eq_ok.mp h
        split at h
        · cases h
        · cases h
          exact .inr ⟨id, cls, object, _, rfl, .entry dict present hnative,
            HostObjects.changedAt_putEntry hid⟩
      · cases h
    · cases h
  · -- what is no object takes no entry, whatever it holds
    obtain ⟨found, hfound, h⟩ := bind_eq_ok.mp h
    split at h
    · obtain ⟨native, hnative, h⟩ := bind_eq_ok.mp h
      split at h <;> cases h
    · cases h
  · split at h
    · rename_i s own hown
      cases h
      cases target with
      | object id cls =>
        cases cls with
        | dict => cases hown
        | user cls =>
          obtain ⟨object, hid, -⟩ := Option.map_eq_some_iff.mp hown
          exact .inr ⟨id, _, object, _, rfl, .text rfl, HostObjects.changedAt_putAttribute hid⟩
      | _ => exact .inl ⟨rfl, rfl⟩
    · cases h
    · cases h

/-- The annotation that a value has to fit to be written: only attributes have one. -/
def slotType? (classes : HostClasses) (objects : HostObjects) (adapter : Adapter) (target : Value)
    (name : String) : Option SlotType :=
  match adapter, objects.get? target with
  | .attributes, some object => classes.slotType? object.cls name
  | _, _ => none

/-- Whatever is written is written to an object, to one slot of it, and can be read from there. -/
theorem write_stored (builtIn : adapter ≠ .textOnly)
    (h : adapter.write classes objects target name value = .ok (.stored objects')) :
    ∃ id cls stored, target = .object id cls ∧
      value.coerce classes (adapter.slotType? classes objects target name) = .ok (some stored) ∧
      objects.WrittenAt classes id name stored objects' ∧
      adapter.readWord classes objects' target name = .ok (some stored) := by
  rcases write_cases h with ⟨textOnly, -⟩ | ⟨id, cls, object, object', rfl, written, changed⟩
  · exact absurd textOnly builtIn
  · cases written with
    | own readable present writable fits =>
      have slot : slotType? classes objects .attributes (.object id cls) name =
          classes.slotType? object.cls name := by
        simp only [slotType?, HostObjects.get?, changed.before]
      refine ⟨id, cls, _, rfl, slot ▸ fits, changed.writtenAt (.own present writable), ?_⟩
      simp [readWord, HostObjects.get?, changed.after, readable, HostObject.attribute?_put writable]
    | entry dict present fits =>
      refine ⟨id, cls, _, rfl, fits, changed.writtenAt (.entry dict present), ?_⟩
      simp [readWord, HostObjects.get?, changed.after, dict, Entries.lookup_put]
    | text same => exact absurd rfl builtIn

/-- Only the object itself counts for what is read of it. -/
theorem readWord_congr (builtIn : adapter ≠ .textOnly)
    (same : objects'.get? target = objects.get? target) :
    adapter.readWord classes objects' target name =
      adapter.readWord classes objects target name := by
  unfold readWord
  rw [same]
  cases objects.get? target <;> cases adapter <;> first | rfl | exact absurd rfl builtIn

/-- A property of an object that is like another one can be read if it can be read of that. -/
theorem isSome_readWord (builtIn : adapter ≠ .textOnly) (alike : objects.Alike classes objects')
    (target : Value) (name : String) :
    (adapter.readWord classes objects' target name).map Option.isSome =
      (adapter.readWord classes objects target name).map Option.isSome := by
  have found : (objects.get? target = none ∧ objects'.get? target = none) ∨
      ∃ object object', objects.get? target = some object ∧ objects'.get? target = some object' ∧
        object.Alike classes object' := by
    cases target with
    | object id cls => exact alike.get? id
    | _ => exact .inl ⟨rfl, rfl⟩
  rcases found with ⟨none, none'⟩ | ⟨object, object', some, some', same⟩
  · cases adapter with
    | attributes => simp only [readWord, none, none']
    | entries => simp only [readWord, none, none']
    | textOnly => exact absurd rfl builtIn
  · have has : (object'.entries.lookup name).isSome = (object.entries.lookup name).isSome :=
      Entries.has_eq_of_keys same.keys
    cases adapter with
    | attributes =>
      simp only [readWord, some, some']
      split
      · simp [Except.map, same.attributes name]
      · rfl
    | entries =>
      simp only [readWord, some, some', same.cls]
      split
      · simp [Except.map, has]
      · rfl
    | textOnly => exact absurd rfl builtIn

/-- A property that was not written is read as before. -/
theorem readWord_of_writtenAt {id : ObjectId} {stored : Value} {other : String}
    (builtIn : adapter ≠ .textOnly)
    (written : objects.WrittenAt classes id name stored objects')
    (apart : (∀ cls, target ≠ .object id cls) ∨ other ≠ name) :
    adapter.readWord classes objects' target other =
      adapter.readWord classes objects target other := by
  cases target with
  | object number cls =>
    by_cases same : number = id
    · have different : other ≠ name := apart.resolve_left fun h => h cls (by rw [same])
      obtain ⟨object, object', before, after, set⟩ := written.object
      rw [← same] at before after
      cases adapter with
      | attributes =>
        simp only [readWord, HostObjects.get?, before, after, set.attribute?_other different]
      | entries =>
        simp only [readWord, HostObjects.get?, before, after, set.alike.cls,
          set.lookup_other different]
      | textOnly => exact absurd rfl builtIn
    · exact readWord_congr builtIn (written.others number same)
  | _ => exact readWord_congr builtIn rfl

end Adapter

/-- An adapter is the one for everything else or one that was registered. -/
theorem Registry.adapterFor_cases (classes : HostClasses) (registry : Registry) (target : Value) :
    registry.adapterFor classes target = registry.fallback ∨
      ∃ key ∈ keys classes target,
        (key, registry.adapterFor classes target) ∈ registry.adapters := by
  unfold adapterFor
  cases h : (keys classes target).findSome? fun key => registry.adapters.lookup key with
  | none => exact .inl rfl
  | some adapter =>
    obtain ⟨key, hkey, found⟩ := List.exists_of_findSome?_eq_some h
    obtain ⟨before, behind, split, -⟩ := List.lookup_eq_some_iff.mp found
    exact .inr ⟨key, hkey, by rw [split]; simp⟩

/-! ## Paths -/

namespace Settings

variable {settings : Settings} {objects objects' : HostObjects} {target value : Value}

/-- The registry has no adapter but those for attributes and for dictionaries. -/
def BuiltIn (settings : Settings) : Prop :=
  ∀ target, settings.registry.adapterFor settings.classes target ≠ .textOnly

theorem builtIn_of_registry (fallback : settings.registry.fallback ≠ .textOnly)
    (registered : ∀ entry ∈ settings.registry.adapters, entry.2 ≠ .textOnly) :
    settings.BuiltIn := by
  intro target
  rcases Registry.adapterFor_cases settings.classes settings.registry target with h | ⟨key, -, h⟩
  · rw [h]
    exact fallback
  · exact registered _ h

theorem readProperty_text (owner : Name) :
    settings.readProperty objects owner target (.text name) = (do
      match ← (settings.registry.adapterFor settings.classes target).readWord settings.classes
        objects target name with
      | some value => .ok value
      | none => .error (.noProperty owner (.text name))) := rfl

theorem isOk_readProperty (builtIn : settings.BuiltIn)
    (alike : objects.Alike settings.classes objects') (owner : Name) (target : Value)
    (name : String) :
    (settings.readProperty objects' owner target (.text name)).isOk =
      (settings.readProperty objects owner target (.text name)).isOk := by
  have same := Adapter.isSome_readWord (builtIn target) alike target name
  rw [readProperty_text, readProperty_text]
  generalize Adapter.readWord settings.classes objects _ target name = before at same ⊢
  generalize Adapter.readWord settings.classes objects' _ target name = after at same ⊢
  cases before with
  | error error =>
    cases after with
    | error error' => rfl
    | ok found' => cases same
  | ok found =>
    cases after with
    | error error' => cases same
    | ok found' =>
      simp only [Except.map, Except.ok.injEq] at same
      cases found with
      | none =>
        cases found' with
        | none => rfl
        | some value' => cases same
      | some value =>
        cases found' with
        | none => cases same
        | some value' => rfl

theorem readProperty_of_writtenAt (builtIn : settings.BuiltIn) {id : ObjectId}
    (written : objects.WrittenAt settings.classes id name stored objects') (owner : Name)
    {other : String} (apart : (∀ cls, target ≠ .object id cls) ∨ other ≠ name) :
    settings.readProperty objects' owner target (.text other) =
      settings.readProperty objects owner target (.text other) := by
  rw [readProperty_text, readProperty_text,
    Adapter.readWord_of_writtenAt (builtIn target) written apart]

theorem writeProperty_eq_ok {owner path : String}
    (h : settings.writeProperty objects owner path target name value = .ok objects') :
    (settings.registry.adapterFor settings.classes target).write settings.classes objects target
      name value = .ok (.stored objects') := by
  obtain ⟨written, hwritten, h⟩ := bind_eq_ok.mp h
  cases written with
  | stored after =>
    cases h
    exact hwritten
  | notFound => cases h
  | rejected => cases h

/-- Writing along a path is writing one property of what the path leads to. -/
theorem writePath_cases {owner path : String} {rest : List String}
    (h : settings.writePath objects owner path value target name rest = .ok objects') :
    ∃ leading last reached, name :: rest = leading ++ [last] ∧
      settings.follow objects (.text owner) target (leading.map .text) = .ok reached ∧
      (settings.registry.adapterFor settings.classes reached).write settings.classes objects reached
        last value = .ok (.stored objects') := by
  induction rest generalizing target name with
  | nil => exact ⟨[], name, target, rfl, rfl, writeProperty_eq_ok h⟩
  | cons next rest ih =>
    obtain ⟨reached, hreached, h⟩ := bind_eq_ok.mp h
    obtain ⟨leading, last, final, hnames, follows, written⟩ := ih h
    refine ⟨name :: leading, last, final, by rw [hnames]; rfl, ?_, written⟩
    rw [List.map_cons, follow, hreached]
    exact follows

/-- Writing along a path writes to one slot of the object that the path leads to, what the value
becomes there. -/
theorem writePath_stored (builtIn : settings.BuiltIn) {owner path : String} {rest : List String}
    (h : settings.writePath objects owner path value target name rest = .ok objects') :
    ∃ leading last id cls stored, name :: rest = leading ++ [last] ∧
      settings.follow objects (.text owner) target (leading.map .text) = .ok (.object id cls) ∧
      value.coerce settings.classes
        ((settings.registry.adapterFor settings.classes (.object id cls)).slotType?
          settings.classes objects (.object id cls) last) = .ok (some stored) ∧
      objects.WrittenAt settings.classes id last stored objects' ∧
      settings.readProperty objects' (.text owner) (.object id cls) (.text last) = .ok stored := by
  obtain ⟨leading, last, reached, hnames, follows, h⟩ := writePath_cases h
  obtain ⟨id, cls, stored, rfl, hstored, written, read⟩ :=
    Adapter.write_stored (builtIn reached) h
  refine ⟨leading, last, id, cls, stored, hnames, follows, hstored, written, ?_⟩
  rw [readProperty_text, read]
  rfl

/-- The same, whatever the annotation of the slot. -/
theorem writePath_eq_ok (builtIn : settings.BuiltIn) {owner path : String} {rest : List String}
    (h : settings.writePath objects owner path value target name rest = .ok objects') :
    ∃ leading last id cls slot stored, name :: rest = leading ++ [last] ∧
      settings.follow objects (.text owner) target (leading.map .text) = .ok (.object id cls) ∧
      value.coerce settings.classes slot = .ok (some stored) ∧
      objects.WrittenAt settings.classes id last stored objects' ∧
      settings.readProperty objects' (.text owner) (.object id cls) (.text last) = .ok stored := by
  obtain ⟨leading, last, id, cls, stored, hnames, follows, hstored, written, read⟩ :=
    writePath_stored builtIn h
  exact ⟨leading, last, id, cls, _, stored, hnames, follows, hstored, written, read⟩

end Settings

end ScopeScript
