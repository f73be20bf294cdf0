import ScopeScript.Host.Conversion
set_option autoImplicit false

/-!
# Host: adapters

Scripts reach host objects through adapters, which read and write single properties.  An adapter
says whether a property is missing or does not take a value, so that the two are told apart.

* `attributes` shows the public attributes of an object, and checks what is written against the
  annotations of its class.
* `entries` shows the entries of a dictionary, and never adds one.
* `textOnly` shows the attributes of an object itself, public or not, and takes nothing but strings.
  What cannot have attributes is an error.

The properties of host objects are all that there is.  Host values that are no objects, such as
numbers, texts and lists, have attributes of their own, and so have functions, handles and sentinels
if a host keeps any; these are left out, and such values have no properties here.

A registry gives every class its adapter; a class without one takes that of its nearest base.
-/

namespace ScopeScript

/-! ## Adapters -/

/-- How properties are read and written. -/
inductive Adapter where
  | attributes | entries | textOnly
  deriving DecidableEq, Repr, Inhabited

/-- What came of writing a property. -/
inductive Written where
  /-- the host objects with the property written -/
  | stored (objects : HostObjects)
  /-- there is no such property -/
  | notFound
  /-- the property does not take the value -/
  | rejected
  deriving Repr, Inhabited

namespace Adapter

/-- Whether a property is public. -/
def isPublic (name : String) : Bool := name.toList.head? != some '_'

/-- Whether a dictionary entry may be looked for in a value that is no dictionary, and is there. -/
def looksIn (target : Value) (name : String) : Except Error Bool :=
  match target with
  | .text s => .ok ((List.range (s.length + 1)).any fun n =>
      name.toList.isPrefixOf (s.toList.drop n))
  | .list items _ => .ok (items.any fun item => item.same (.text name))
  | _ => .error .wrongShape

/-- Reads the property that a word names; `none` if there is none.  To the adapter for attributes a
value that is no object of the host has none, since attributes of such values are left out. -/
def readWord (classes : HostClasses) (objects : HostObjects) (adapter : Adapter) (target : Value)
    (name : String) : Except Error (Option Value) :=
  match adapter, objects.get? target with
  | .attributes, some object =>
    .ok (if isPublic name then object.attribute? classes name else none)
  | .attributes, none => .ok none
  | .entries, some object =>
    if classes.isDict object.cls then .ok (object.entries.lookup name) else .error .missingPart
  | .entries, none => .error .missingPart
  | .textOnly, _ =>
    match objects.attributes? target with
    | some own => .ok (own.lookup name)
    | none => .error .wrongShape

/-- Reads a property; `none` if there is none.  Only words name properties, and attributes cannot
even be asked for by anything else. -/
def read (classes : HostClasses) (objects : HostObjects) (adapter : Adapter) (target : Value)
    (name : Name) : Except Error (Option Value) :=
  match name, adapter with
  | .text word, adapter => adapter.readWord classes objects target word
  | _, .attributes => .error .missingPart
  | _, .entries =>
    match objects.get? target with
    | some object => if classes.isDict object.cls then .ok none else .error .missingPart
    | none => .error .missingPart
  | _, .textOnly => if (objects.attributes? target).isSome then .ok none else .error .wrongShape

/-- Writes an attribute that can be read. -/
def writeAttribute (classes : HostClasses) (objects : HostObjects) (object : HostObject)
    (target : Value) (name : String) (value : Value) : Except Error Written := do
  match ← value.coerce classes (classes.slotType? object.cls name) with
  | none => .ok .rejected
  | some stored =>
    if object.isWritable classes name then .ok (.stored (objects.putAttribute target name stored))
    else .ok .rejected

/-- Writes an entry that is there. -/
def writeEntry (classes : HostClasses) (objects : HostObjects) (target : Value) (name : String)
    (value : Value) : Except Error Written := do
  match ← value.coerce classes none with
  | none => .ok .rejected
  | some stored => .ok (.stored (objects.putEntry target name stored))

/-- Writes a property.  As in `readWord`, a value that is no object of the host has no attributes
that could be written. -/
def write (classes : HostClasses) (objects : HostObjects) (adapter : Adapter) (target : Value)
    (name : String) (value : Value) : Except Error Written :=
  match adapter, objects.get? target with
  | .attributes, some object =>
    if isPublic name && (object.attribute? classes name).isSome then
      writeAttribute classes objects object target name value
    else .ok .notFound
  | .attributes, none => .ok .notFound
  | .entries, some object =>
    if classes.isDict object.cls then
      if Entries.has object.entries name then writeEntry classes objects target name value
      else .ok .notFound
    else .error .wrongShape
  | .entries, none => do
    if ← looksIn target name then
      match ← value.coerce classes none with
      | none => .ok .rejected
      | some _ => .error .wrongShape
    else .ok .notFound
  | .textOnly, _ =>
    match value, objects.attributes? target with
    | .text _, some _ => .ok (.stored (objects.putAttribute target name value))
    | .text _, none => .error .wrongShape
    | _, _ => .ok .rejected

end Adapter

/-! ## Registries -/

/-- What an adapter can be registered for. -/
inductive AdapterKey where
  /-- a class, which may be that of all dictionaries -/
  | cls (name : ClassName)
  /-- everything -/
  | everything
  deriving DecidableEq, Repr, Inhabited

/-- The adapters of a host. -/
structure Registry where
  adapters : List (AdapterKey × Adapter) := [(.cls .dict, .entries)]
  fallback : Adapter := .attributes
  deriving Repr, Inhabited

namespace Registry

/-- Registers an adapter, in place of the one there may be. -/
def register (registry : Registry) (key : AdapterKey) (adapter : Adapter) : Registry :=
  { registry with adapters := (key, adapter) :: registry.adapters.filter (·.1 != key) }

/-- What the adapter of a value may be registered for, in order. -/
def keys (classes : HostClasses) : Value → List AdapterKey
  | .object _ cls =>
    (classes.lineage cls).map (fun c => .cls (.user c.name)) ++
      (if classes.isDict cls then [.cls .dict] else []) ++ [.everything]
  | _ => [.everything]

/-- The adapter of a host value. -/
def adapterFor (classes : HostClasses) (registry : Registry) (target : Value) : Adapter :=
  ((keys classes target).findSome? fun key => registry.adapters.lookup key).getD registry.fallback

end Registry

end ScopeScript
