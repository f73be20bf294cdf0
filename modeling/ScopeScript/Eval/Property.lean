import ScopeScript.Eval.Machine
set_option autoImplicit false

/-!
# Eval: property paths

A path leads from a name bound to a handle through properties of host objects.  Following a path
changes nothing.  Writing at its end changes one property of the one object it leads to, or fails
and changes nothing.
-/

namespace ScopeScript

namespace Settings

/-- The value of one property, which has to be there; `owner` is the name that the path starts
with. -/
def readProperty (settings : Settings) (objects : HostObjects) (owner : Name) (target : Value)
    (name : Name) : Except Error Value := do
  let adapter := settings.registry.adapterFor settings.classes target
  match ← adapter.read settings.classes objects target name with
  | some value => .ok value
  | none => .error (.noProperty owner name)

/-- The host value that properties lead to. -/
def follow (settings : Settings) (objects : HostObjects) (owner : Name) :
    Value → List Name → Except Error Value
  | target, [] => .ok target
  | target, name :: rest => do
    let next ← settings.readProperty objects owner target name
    settings.follow objects owner next rest

/-- The host objects after a value is written to one property. -/
def writeProperty (settings : Settings) (objects : HostObjects) (owner path : String)
    (target : Value) (name : String) (value : Value) : Except Error HostObjects := do
  let adapter := settings.registry.adapterFor settings.classes target
  match ← adapter.write settings.classes objects target name value with
  | .stored objects => .ok objects
  | .notFound => .error (.noProperty (.text owner) (.text name))
  | .rejected => .error (.propertyType path value.typeName)

/-- The host objects after a value is written to the property at the end of a path; the path goes on
from `target` with `name` and then `rest`. -/
def writePath (settings : Settings) (objects : HostObjects) (owner path : String) (value : Value) :
    Value → String → List String → Except Error HostObjects
  | target, name, [] => settings.writeProperty objects owner path target name value
  | target, name, next :: rest => do
    let reached ← settings.readProperty objects (.text owner) target (.text name)
    settings.writePath objects owner path value reached next rest

end Settings

namespace Eval

/-- The target of the handle that a name is bound to. -/
def handleTarget (scope : ScopeId) (name : Name) : Eval Value := do
  match ← lookup scope name with
  | .handle target _ => pure target
  | _ => throw (.operand (.text ".") "NativeObject")

/-- Reads the property at the end of a path. -/
def readPath (settings : Settings) (scope : ScopeId) (name : Name) (properties : Datum) :
    Eval Value := do
  let target ← handleTarget scope name
  match properties.items? with
  | some items =>
    let value ← ofExcept (settings.follow (← get).objects name target items)
    emit? settings Event.propertyLevel ((Node.path? name properties).map .propertyRead)
    ofExcept (Value.ofHost value)
  | none => throw .wrongShape

/-- Writes the property at the end of a path. -/
def assignPath (settings : Settings) (scope : ScopeId) (name property : String)
    (rest : List String) (value : Value) : Eval Unit := do
  let path := Node.path name (property :: rest)
  let target ← handleTarget scope (.text name)
  let machine ← get
  let objects ← ofExcept
    (settings.writePath machine.objects name path value target property rest)
  EStateM.set { machine with objects := objects }
  emit settings (.propertyWritten path)

end Eval

end ScopeScript
