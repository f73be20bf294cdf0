import ScopeScript.Eval.Operator
import ScopeScript.Host.Adapter
import ScopeScript.Scope
set_option autoImplicit false

/-!
# Eval: the state of a run

A run works on scopes and host objects, and keeps a log of what it did.  An error leaves the state
as it was when the error arose; nothing is taken back.

What is logged depends on how much detail is asked for, from calls alone to every property read, and
on nothing else.
-/

namespace ScopeScript

/-- Something that a run logs. -/
inductive Event where
  /-- a function was called -/
  | called (name : Name) (arguments : List Value)
  /-- a constant or a variable was declared -/
  | declared (isConst : Bool) (name : Name) (value : Value)
  /-- a variable or a property was assigned to -/
  | assigned (path : String) (value : Value)
  /-- a function was declared -/
  | defined (name : Name) (params : List String)
  /-- a condition was decided -/
  | decided (truth : Bool)
  /-- a property was read -/
  | propertyRead (path : String)
  /-- a property was written -/
  | propertyWritten (path : String)
  deriving Repr, Inhabited

namespace Event

/-- The least level of detail at which declarations are logged. -/
def declarationLevel : Nat := 2

/-- The least level of detail at which properties are logged. -/
def propertyLevel : Nat := 3

/-- The least level of detail at which an event is logged. -/
def level : Event → Nat
  | .called _ _ => 1
  | .declared _ _ _ | .assigned _ _ | .defined _ _ => declarationLevel
  | .decided _ | .propertyRead _ | .propertyWritten _ => propertyLevel

/-- The line of an event in the log, as it is written at one moment of the host. -/
def line (host : Host) : Event → String
  | .called name arguments =>
    "call " ++ name.asText ++ "(" ++ ", ".intercalate (arguments.map host.render) ++ ")"
  | .declared isConst name value =>
    "declare " ++ (if isConst then "const " else "var ") ++ name.asText ++ " = " ++
      host.render value
  | .assigned path value => "set " ++ path ++ " = " ++ host.render value
  | .defined name params =>
    "define function " ++ name.asText ++ "(" ++ ", ".intercalate params ++ ")"
  | .decided truth => "if condition -> " ++ Value.booleanText truth
  | .propertyRead path => "read " ++ path
  | .propertyWritten path => "write " ++ path

end Event

/-- An event and the line that was written of it. -/
structure LogEntry where
  event : Event
  line : String
  deriving Repr, Inhabited

/-- The text of a log: a line for every event. -/
def logText (log : Array LogEntry) : String :=
  String.join (log.toList.map fun entry => entry.line ++ "\n")

/-- What stays the same during a run. -/
structure Settings where
  /-- the context of arithmetic -/
  context : Context := .standard
  /-- how much is logged -/
  logLevel : Nat := 0
  classes : HostClasses := []
  registry : Registry := {}
  deriving Repr, Inhabited

/-- What changes during a run. -/
structure Machine where
  scopes : Scopes := .initial
  objects : HostObjects := #[]
  /-- the number of handles that were made -/
  handles : Nat := 0
  log : Array LogEntry := #[]
  deriving Repr, Inhabited

/-- The host of a run as it is now. -/
def Settings.host (settings : Settings) (machine : Machine) : Host :=
  ⟨settings.classes, machine.objects⟩

/-- A computation on the state of a run, which may end in an error. -/
abbrev Eval : Type → Type := EStateM Error Machine

namespace Eval

/-- The value of a name. -/
def lookup (scope : ScopeId) (name : Name) : Eval Value := do
  match (← get).scopes.lookup scope name with
  | .ok value => pure value
  | .error error => throw error

/-- Changes the scopes, unless there is a problem with that. -/
def updateScopes (problem? : Scopes → Option Error) (change : Scopes → Scopes) : Eval Unit := do
  match problem? (← get).scopes with
  | some error => throw error
  | none =>
    EStateM.modifyGet fun machine => ((), { machine with scopes := change machine.scopes })

/-- Binds a name in a scope that does not bind it yet. -/
def declare (scope : ScopeId) (name : Name) (value : Value) (isConst : Bool) : Eval Unit :=
  updateScopes (·.declareProblem? scope name) (·.bind scope name value isConst)

/-- Binds several names in a scope, in order. -/
def declareAll (scope : ScopeId) : List (Name × Value) → Eval Unit
  | [] => pure ()
  | (name, value) :: rest => do
    declare scope name value false
    declareAll scope rest

/-- Declares a function in a scope that does not bind its name yet. -/
def declareFunction (scope : ScopeId) (name : Name) (code : Code) : Eval Unit :=
  updateScopes (·.declareProblem? scope name) (·.bindFunction scope name code)

/-- Gives a variable another value. -/
def assign (scope : ScopeId) (name : Name) (value : Value) : Eval Unit :=
  updateScopes (·.assignProblem? scope name) (·.store scope name value)

/-- Makes a scope with given scopes around it. -/
def addScope (outer : List ScopeId) : Eval ScopeId :=
  EStateM.modifyGet fun machine =>
    let (id, scopes) := machine.scopes.add outer
    (id, { machine with scopes := scopes })

/-- Makes a scope inside another one. -/
def newScope (scope : ScopeId) : Eval ScopeId := do
  let outer := (← get).scopes.chain scope
  addScope outer

/-- Logs an event if the settings ask for it.  Writing a line is taken never to fail. -/
def emit (settings : Settings) (event : Event) : Eval Unit :=
  if event.level ≤ settings.logLevel then
    EStateM.modifyGet fun machine =>
      let entry : LogEntry := ⟨event, event.line (settings.host machine)⟩
      ((), { machine with log := machine.log.push entry })
  else pure ()

/-- Logs an event that there may not be, since it is about things that are no words.  Only a log
that would show it misses it. -/
def emit? (settings : Settings) (level : Nat) : Option Event → Eval Unit
  | some event => emit settings event
  | none => if level ≤ settings.logLevel then throw .wrongShape else pure ()

/-- A result that does not depend on the state. -/
def ofExcept {α : Type} : Except Error α → Eval α
  | .ok a => pure a
  | .error error => throw error

/-- Refuses a sentinel where a value is asked for. -/
def demand (description : String) (value : Value) : Eval Value :=
  if value.isSentinel then throw (.noValue description) else pure value

end Eval

end ScopeScript
