import ScopeScript.Entries
import ScopeScript.Error
set_option autoImplicit false

/-!
# Host: classes and objects

The objects of a host, as far as scripts can reach them.  An object has a class, entries if it is a
dictionary, and attributes if its class is one of the host's own.

A class may annotate attributes with what they hold, give them defaults, and compute some of them.
Computed attributes cannot be written, and some fail to be computed; each has one value, the same
for all objects of its class, since the code that computes it belongs to the host.  A class takes
everything from its bases that it does not have itself.  Objects of a frozen class take no
attributes at all.

An annotation that is a class of the host takes the objects of that class and of those derived from
it.  Some classes cannot be asked for their objects, as protocols that are not for use at run time
and typed dictionaries cannot: asking one is an error, whatever it is asked about.
-/

namespace ScopeScript

/-- What an annotation says that an attribute holds. -/
inductive SlotType where
  /-- anything at all -/
  | any
  | object | boolean | integer | decimal | text | float | dict | list | nothing
  /-- a type that is no class -/
  | generic
  /-- a type that cannot be found -/
  | unresolvable
  /-- a class of the host -/
  | instanceOf (cls : String)
  /-- a class that cannot be asked for its objects -/
  | unchecked
  deriving DecidableEq, Repr, Inhabited

/-- A class of the host. -/
structure HostClass where
  name : String
  /-- the classes it is derived from, nearest first -/
  bases : List String := []
  /-- whether its objects are dictionaries -/
  isDict : Bool := false
  slots : Entries String SlotType := []
  defaults : Entries String Value := []
  /-- the attributes that are computed, each with the value that it has for all objects -/
  computed : Entries String Value := []
  /-- the attributes that fail to be computed -/
  failing : List String := []
  frozen : Bool := false
  deriving Repr, Inhabited

/-- The classes of a host. -/
abbrev HostClasses : Type := List HostClass

/-- An object of the host. -/
structure HostObject where
  cls : ClassName
  entries : Entries String Value := []
  attributes : Entries String Value := []
  deriving Repr, Inhabited

/-- The objects of a host, by number. -/
abbrev HostObjects : Type := Array HostObject

namespace HostClasses

/-- The class of a name. -/
def find? (classes : HostClasses) (name : String) : Option HostClass :=
  List.find? (fun cls => cls.name == name) classes

/-- A class and its bases, nearest first. -/
def lineage (classes : HostClasses) : ClassName → List HostClass
  | .dict => []
  | .user name =>
    match classes.find? name with
    | some cls => cls :: cls.bases.filterMap classes.find?
    | none => []

/-- Whether the objects of a class are dictionaries. -/
def isDict (classes : HostClasses) (cls : ClassName) : Bool :=
  match cls with
  | .dict => true
  | .user _ => (classes.lineage cls).any (·.isDict)

/-- Whether the objects of a class take no attributes. -/
def isFrozen (classes : HostClasses) (cls : ClassName) : Bool :=
  (classes.lineage cls).any (·.frozen)

/-- Whether a class is another one or derived from it. -/
def derives (classes : HostClasses) (cls : ClassName) (base : String) : Bool :=
  (classes.lineage cls).any (·.name == base)

/-- The annotation of an attribute: that of the nearest class that has one.  Where any annotation of
a class or its bases cannot be found, none counts. -/
def slotType? (classes : HostClasses) (cls : ClassName) (name : String) : Option SlotType :=
  let lineage := classes.lineage cls
  if lineage.any fun cls => cls.slots.any (·.2 == .unresolvable) then none
  else lineage.findSome? fun cls => cls.slots.lookup name

end HostClasses

/-- What a class says about one of its attributes. -/
inductive ClassAttribute where
  | default (value : Value)
  | computed (value : Value)
  | failing
  deriving Repr, Inhabited

namespace HostClass

/-- What a class itself says about an attribute. -/
def attribute? (cls : HostClass) (name : String) : Option ClassAttribute :=
  if cls.failing.contains name then some .failing
  else match cls.computed.lookup name with
    | some value => some (.computed value)
    | none => (cls.defaults.lookup name).map .default

end HostClass

namespace HostClasses

/-- What the nearest class that knows an attribute says about it. -/
def attribute? (classes : HostClasses) (cls : ClassName) (name : String) : Option ClassAttribute :=
  (classes.lineage cls).findSome? fun cls => cls.attribute? name

end HostClasses

namespace HostObject

/-- The value of an attribute: a computed one first, then one of the object itself, then a
default. -/
def attribute? (classes : HostClasses) (object : HostObject) (name : String) : Option Value :=
  match classes.attribute? object.cls name with
  | some (.computed value) => some value
  | some .failing => none
  | some (.default value) => some ((object.attributes.lookup name).getD value)
  | none => object.attributes.lookup name

/-- Whether an attribute of the object can be written. -/
def isWritable (classes : HostClasses) (object : HostObject) (name : String) : Bool :=
  !classes.isFrozen object.cls &&
    match classes.attribute? object.cls name with
    | some (.computed _) | some .failing => false
    | _ => true

end HostObject

namespace HostObjects

/-- The object that a value refers to. -/
def get? (objects : HostObjects) : Value → Option HostObject
  | .object id _ => objects[id]?
  | _ => none

/-- The attributes of a value itself, if its class is one whose objects can have some.  Those of
functions, handles and sentinels are left out. -/
def attributes? (objects : HostObjects) : Value → Option (Entries String Value)
  | .object _ .dict => none
  | .object id (.user _) => (objects[id]?).map (·.attributes)
  | .function _ _ | .handle _ _ | .sentinel _ => some []
  | _ => none

/-- Writes an attribute of an object. -/
def putAttribute (objects : HostObjects) (target : Value) (name : String) (value : Value) :
    HostObjects :=
  match target with
  | .object id _ => objects.modify id fun object =>
    { object with attributes := Entries.put object.attributes name value }
  | _ => objects

/-- Writes an entry of a dictionary. -/
def putEntry (objects : HostObjects) (target : Value) (name : String) (value : Value) :
    HostObjects :=
  match target with
  | .object id _ => objects.modify id fun object =>
    { object with entries := Entries.put object.entries name value }
  | _ => objects

end HostObjects

/-- A host at one moment: its classes, and its objects with what they hold. -/
structure Host where
  classes : HostClasses := []
  objects : HostObjects := #[]
  deriving Repr, Inhabited

/-- The entries of an object that is a dictionary. -/
def Host.entries? (host : Host) (id : ObjectId) : Option (Entries String Value) :=
  match host.objects[id]? with
  | some object => if host.classes.isDict object.cls then some object.entries else none
  | none => none

end ScopeScript
