import ScopeScript.Proofs.Host.Slots
import ScopeScript.Proofs.Number.Value
set_option autoImplicit false

/-!
# Host: annotations

A class says what some of its attributes hold.  The adapter for attributes writes what fits: a value
of the type that is asked for, in full.  A number becomes an integer of the same value or is
refused, a handle becomes its target, and anything else stays what it is.  Where the annotation is
no class and allows for nothing in particular, nothing fits; where it is a class that cannot be
asked, nothing is ever written either.
-/

namespace ScopeScript

variable {classes : HostClasses}

/-! ## Types -/

namespace HostClasses

/-- The annotation of an attribute: that of the nearest class that has one. -/
def annotation? (classes : HostClasses) (cls : ClassName) (name : String) : Option SlotType :=
  (classes.lineage cls).findSome? fun cls => cls.slots.lookup name

/-- Every annotation of a class and its bases can be found. -/
def Resolves (classes : HostClasses) (cls : ClassName) : Prop :=
  ∀ base ∈ classes.lineage cls, ∀ slot ∈ base.slots, slot.2 ≠ .unresolvable

theorem slotType?_eq {cls : ClassName} (resolves : classes.Resolves cls) (name : String) :
    classes.slotType? cls name = classes.annotation? cls name := by
  unfold slotType?
  dsimp only
  rw [if_neg]
  · rfl
  · simp only [List.any_eq_true, beq_iff_eq, not_exists, not_and]
    exact resolves

end HostClasses

/-- The value is of the type that an annotation names.  Anything is an object, and what is no class,
or cannot be asked, does not say what a value has to be. -/
def SlotType.Describes (classes : HostClasses) : SlotType → Value → Prop
  | .any, _ | .object, _ | .generic, _ | .unresolvable, _ | .unchecked, _ => True
  | .boolean, value => ∃ b, value = .boolean b
  | .integer, value => ∃ n, value = .integer n
  | .decimal, value => ∃ n, value = .number n
  | .text, value => ∃ s, value = .text s
  | .float, value => ∃ x, value = .float x
  | .list, value => ∃ items copy, value = .list items copy
  | .nothing, value => value = .nothing
  | .dict, value => ∃ id cls, value = .object id cls ∧ classes.isDict cls = true
  | .instanceOf base, value => ∃ id cls, value = .object id cls ∧ classes.derives cls base = true

theorem SlotType.describes_of_admits {slot : SlotType} {target : Value}
    (h : slot.admits classes target = .ok true) : slot.Describes classes target := by
  unfold admits at h
  split at h
  · cases h
  · exact ⟨_, rfl⟩
  · exact ⟨_, _, rfl⟩
  · rfl
  · exact ⟨_, _, rfl, Except.ok.inj h⟩
  · exact ⟨_, _, rfl, Except.ok.inj h⟩
  · cases h

/-- The annotation lets nothing be written: it is no class, or one that cannot be asked. -/
def SlotType.IsFixed (slot : SlotType) : Prop := slot = .generic ∨ slot = .unchecked

/-! ## What is stored -/

/-- What is stored of a value, given what the attribute is annotated with. -/
inductive Value.StoredAs (slot : Option SlotType) : Value → Value → Prop
  /-- an integer that is equal to the number written -/
  | integer {d : Decimal} {n : Int} (asked : slot = some .integer) (equal : d.value = n) :
    StoredAs slot (.number (.finite d)) (.integer n)
  /-- the target of a handle, and any other value itself -/
  | whole {value : Value} (other : slot ≠ some .integer)
    (noFunction : ∀ home name, value ≠ .function home name) :
    StoredAs slot value value.toHost

namespace Value

variable {value stored : Value} {slot : Option SlotType}

theorem storedAs_of_coerce (h : value.coerce classes slot = .ok (some stored)) :
    value.StoredAs slot stored := by
  unfold coerce at h
  split at h
  · cases h
  all_goals try (cases h; exact .whole (by simp) (by simp_all))
  · rename_i n
    obtain ⟨integer, hinteger, h⟩ := bind_eq_ok.mp h
    cases integer with
    | none => cases h
    | some integer =>
      cases h
      cases n with
      | finite d => exact .integer rfl (Decimal.toInt?_eq_some_iff.mp (Except.ok.inj hinteger))
      | infinity => cases hinteger
      | nan signaling => cases signaling <;> cases hinteger
  · obtain ⟨admitted, hadmitted, h⟩ := bind_eq_ok.mp h
    split at h
    · rename_i accepted
      cases h
      refine .whole ?_ (by simp)
      rintro ⟨⟩
      -- what is asked for an integer is no class that could admit anything
      rw [accepted] at hadmitted
      cases stored <;> cases hadmitted
    · cases h
  · cases h

theorem describes_of_coerce {type : SlotType}
    (h : value.coerce classes (some type) = .ok (some stored)) : type.Describes classes stored := by
  unfold coerce at h
  split at h
  · cases h
  · rename_i unannotated
    cases unannotated
  · rename_i any
    cases any
    trivial
  · rename_i object
    cases object
    trivial
  · rename_i asked
    cases asked
    cases h
    exact ⟨_, rfl⟩
  · rename_i asked
    cases asked
    obtain ⟨integer, -, h⟩ := bind_eq_ok.mp h
    cases integer with
    | none => cases h
    | some integer =>
      cases h
      exact ⟨_, rfl⟩
  · rename_i asked
    cases asked
    cases h
    exact ⟨_, rfl⟩
  · rename_i asked
    cases asked
    cases h
    exact ⟨_, rfl⟩
  · rename_i asked
    cases asked
    obtain ⟨admitted, hadmitted, h⟩ := bind_eq_ok.mp h
    split at h
    · rename_i accepted
      cases h
      rw [accepted] at hadmitted
      exact SlotType.describes_of_admits hadmitted
    · cases h
  · cases h

/-- Nothing is ever stored under an annotation that lets nothing be written. -/
theorem coerce_fixed {type : SlotType} (fixed : type.IsFixed) (value : Value) :
    value.coerce classes (some type) ≠ .ok (some stored) := by
  rcases fixed with rfl | rfl <;> cases value <;> exact nofun

/-- A number that is no integer does not fit where one is asked for. -/
theorem coerce_fraction {d : Decimal} (fraction : ∀ n : Int, d.value ≠ n) :
    (number (.finite d)).coerce classes (some .integer) = .ok none := by
  have none : d.toInt? = none := by
    cases h : d.toInt? with
    | none => rfl
    | some n => exact absurd (Decimal.toInt?_eq_some_iff.mp h) (fraction n)
  simp only [coerce, Number.toInteger, none]
  rfl

end Value

/-! ## Objects -/

namespace HostObject

variable {object object' : HostObject} {name : String} {value : Value}

/-- Every attribute that is annotated holds a value of its type. -/
def Annotated (classes : HostClasses) (object : HostObject) : Prop :=
  ∀ name type value, classes.annotation? object.cls name = some type →
    object.attribute? classes name = some value → type.Describes classes value

/-- An object may become another one without harm to its annotations: if they were right they still
are, and an attribute whose annotation is no class, or one that cannot be asked, holds what it
held. -/
structure Evolves (classes : HostClasses) (object object' : HostObject) : Prop where
  cls : object'.cls = object.cls
  annotated : object.Annotated classes → object'.Annotated classes
  fixed : ∀ name type, classes.annotation? object.cls name = some type → type.IsFixed →
    object'.attribute? classes name = object.attribute? classes name

theorem Evolves.refl (object : HostObject) : object.Evolves classes object :=
  ⟨rfl, id, fun _ _ _ _ => rfl⟩

theorem Evolves.trans {object'' : HostObject} (h : object.Evolves classes object')
    (h' : object'.Evolves classes object'') : object.Evolves classes object'' := by
  refine ⟨h'.cls.trans h.cls, h'.annotated ∘ h.annotated, fun name type asked fixed => ?_⟩
  exact (h'.fixed name type (h.cls ▸ asked) fixed).trans (h.fixed name type asked fixed)

/-- A value has been stored in an attribute in full, and nothing else has changed. -/
structure Stores (classes : HostClasses) (name : String) (value : Value)
    (object object' : HostObject) : Prop where
  cls : object'.cls = object.cls
  stored : ∃ stored, value.StoredAs (classes.annotation? object.cls name) stored ∧
    object'.attribute? classes name = some stored
  others : ∀ other, other ≠ name →
    object'.attribute? classes other = object.attribute? classes other

variable (resolves : classes.Resolves object.cls)
  (written : object.WrittenBy classes name value .attributes object')

include resolves written

theorem WrittenBy.stores : object.Stores classes name value object' := by
  cases written with
  | own readable present writable fits =>
    rw [HostClasses.slotType?_eq resolves] at fits
    refine ⟨rfl, ⟨_, Value.storedAs_of_coerce fits, ?_⟩, fun other apart => ?_⟩
    · rw [attribute?_put writable, if_pos rfl]
    · rw [attribute?_put writable, if_neg apart]

theorem WrittenBy.evolves : object.Evolves classes object' := by
  cases written with
  | own readable present writable fits =>
    rw [HostClasses.slotType?_eq resolves] at fits
    refine ⟨rfl, fun annotated other type held hother hheld => ?_,
      fun other type asked fixed => ?_⟩
    · rw [attribute?_put writable] at hheld
      split at hheld
      · rename_i same
        cases hheld
        rw [same] at hother
        exact Value.describes_of_coerce (hother ▸ fits)
      · exact annotated other type held hother hheld
    · rw [attribute?_put writable, if_neg]
      rintro rfl
      rw [asked] at fits
      exact Value.coerce_fixed fixed value fits

end HostObject

end ScopeScript
