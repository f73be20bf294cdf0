import ScopeScript.Datum.Key
import ScopeScript.Entries
import ScopeScript.Error
set_option autoImplicit false

/-!
# Scope: where names are bound

A scope binds names to values and knows the scopes around it, innermost first.  All scopes of a run
are kept together and are named by their number, so that functions can outlive the block they were
declared in.  A scope is only ever made inside scopes that exist, so the scopes around it are known
from the start and never change.

Reading and assigning resolve a name to the same scope: the first one, from the inside out, that
binds it.
-/

namespace ScopeScript

/-- A name as it was declared, and what it is bound to. -/
structure Binding where
  name : Name
  value : Value
  isConst : Bool
  deriving Repr, Inhabited

/-- The code of a function. -/
structure Code where
  /-- the parameters, a tuple of words as a rule -/
  params : Datum
  body : Node
  deriving Repr, Inhabited

/-- The parameters of a function one by one. -/
def Code.parameters (code : Code) : List Name := code.params.items?.getD []

/-- The code that stands in for a function that has none. -/
def Code.empty : Code := ⟨.tuple [], .block []⟩

/-- A scope: the scopes around it from the inside out, the names it binds by their keys in the order
of their declaration, and the code of the functions declared in it. -/
structure Scope where
  outer : List ScopeId := []
  bindings : Entries Datum Binding := []
  functions : Entries Name Code := []
  deriving Repr, Inhabited

/-- All scopes of a run. -/
structure Scopes where
  cells : Array Scope
  deriving Repr, Inhabited

namespace Scopes

/-- One scope, around which there is none. -/
def initial : Scopes := ⟨#[{}]⟩

/-- The scope of a name; one that does not exist binds nothing. -/
def get (scopes : Scopes) (id : ScopeId) : Scope := scopes.cells.getD id {}

/-- What a scope binds a name to. -/
def binding? (scopes : Scopes) (id : ScopeId) (name : Name) : Option Binding :=
  (scopes.get id).bindings.lookup name.key

/-- A scope and those around it, from the inside out. -/
def chain (scopes : Scopes) (id : ScopeId) : List ScopeId := id :: (scopes.get id).outer

/-- The nearest scope that binds a name. -/
def resolve? (scopes : Scopes) (id : ScopeId) (name : Name) : Option ScopeId :=
  (scopes.chain id).find? fun scope => (scopes.binding? scope name).isSome

/-- The number of scopes around a scope. -/
def depth (scopes : Scopes) (id : ScopeId) : Nat := (scopes.get id).outer.length

/-- Changes one scope. -/
def modify (scopes : Scopes) (id : ScopeId) (change : Scope → Scope) : Scopes :=
  ⟨scopes.cells.modify id change⟩

/-- A change of a scope is seen in that scope alone. -/
theorem get_modify (scopes : Scopes) (id other : ScopeId) (change : Scope → Scope) :
    (scopes.modify id change).get other =
      if other = id ∧ id < scopes.cells.size then change (scopes.get other)
      else scopes.get other := by
  simp only [get, modify, Array.getD_eq_getD_getElem?, Array.getElem?_modify]
  by_cases same : id = other
  · subst same
    by_cases bound : id < scopes.cells.size <;> simp [bound]
  · simp [same, Ne.symm same]

/-! ## Operations -/

/-- The value of a name as seen from a scope. -/
def lookup (scopes : Scopes) (id : ScopeId) (name : Name) : Except Error Value :=
  match (scopes.resolve? id name).bind fun scope => scopes.binding? scope name with
  | some binding => .ok binding.value
  | none => .error (.unbound name)

/-- Why a name cannot be declared in a scope, if it cannot. -/
def declareProblem? (scopes : Scopes) (id : ScopeId) (name : Name) : Option Error :=
  if (scopes.binding? id name).isSome then some (.duplicate name) else none

/-- Binds a name in a scope that does not bind it yet. -/
def bind (scopes : Scopes) (id : ScopeId) (name : Name) (value : Value) (isConst : Bool) :
    Scopes :=
  scopes.modify id fun scope =>
    { scope with bindings := scope.bindings ++ [(name.key, ⟨name, value, isConst⟩)] }

/-- In a scope that exists, a name that it does not bind yet is bound to what it is given. -/
theorem binding?_bind (scopes : Scopes) (id other : ScopeId) (name word : Name) (value : Value)
    (isConst : Bool) :
    (scopes.bind id name value isConst).binding? other word = (scopes.binding? other word).or
      (if (other = id ∧ id < scopes.cells.size) ∧ word.key = name.key then
        some ⟨name, value, isConst⟩ else none) := by
  rw [binding?, binding?, bind, get_modify]
  by_cases here : other = id ∧ id < scopes.cells.size
  · simp only [here, and_self, true_and, if_true, Entries.lookup_append, Entries.lookup_cons,
      List.lookup_nil]
  · simp [here]

/-- Binds the name of a function, as a constant, in a scope that does not bind it yet. -/
def bindFunction (scopes : Scopes) (id : ScopeId) (name : Name) (code : Code) : Scopes :=
  (scopes.bind id name (.function id name) true).modify id fun scope =>
    { scope with functions := scope.functions ++ [(name, code)] }

/-- Why a name, as seen from a scope, cannot be given another value, if it cannot. -/
def assignProblem? (scopes : Scopes) (id : ScopeId) (name : Name) : Option Error :=
  match (scopes.resolve? id name).bind fun scope => scopes.binding? scope name with
  | some binding => if binding.isConst then some (.constant name) else none
  | none => some (.unbound name)

/-- Gives a variable, as seen from a scope, another value.  Nothing is bound that was not. -/
def store (scopes : Scopes) (id : ScopeId) (name : Name) (value : Value) : Scopes :=
  match scopes.resolve? id name with
  | some scope =>
    scopes.modify scope fun cell =>
      { cell with bindings := Entries.change cell.bindings name.key fun binding =>
          { binding with value := value } }
  | none => scopes

/-- Makes a scope with given scopes around it. -/
def add (scopes : Scopes) (outer : List ScopeId) : ScopeId × Scopes :=
  (scopes.cells.size, ⟨scopes.cells.push { outer := outer }⟩)

/-- The new scope binds nothing, and no other scope changes. -/
theorem get_add (scopes : Scopes) (outer : List ScopeId) (id : ScopeId) :
    (scopes.add outer).2.get id =
      if id = (scopes.add outer).1 then { outer := outer } else scopes.get id := by
  simp only [get, add, Array.getD_eq_getD_getElem?, Array.getElem?_push]
  by_cases same : id = scopes.cells.size <;> simp [same]

/-- The code of a function. -/
def code (scopes : Scopes) (home : ScopeId) (name : Name) : Code :=
  ((scopes.get home).functions.lookup name).getD .empty

/-- Makes a function in a scope of its own, which binds nothing. -/
def addFunction (scopes : Scopes) (name : Name) (code : Code) : Value × Scopes :=
  let (id, scopes) := scopes.add []
  (.function id name, scopes.modify id fun scope => { scope with functions := [(name, code)] })

/-! ## Display -/

/-- How a scope is shown: its depth, and its names in order, which they have to have. -/
def display (scopes : Scopes) (id : ScopeId) : Except Error String :=
  match Datum.sort? ((scopes.get id).bindings.map fun entry => entry.2.name) with
  | some names =>
    .ok ("<Environment depth=" ++ toString (scopes.depth id) ++ " names=[" ++
      ", ".intercalate (names.map Datum.display) ++ "]>")
  | none => .error .wrongShape

end Scopes

end ScopeScript
