import Mathlib.Logic.Relation
import ScopeScript.Proofs.Tree.Literals
import ScopeScript.Scope
set_option autoImplicit false

/-!
# Scope: territories and what changes in them

A run starts with some scopes in sight and makes more.  Its territory are the scopes that it was
given and those that were made since it started; among them, some may get new names.  A territory
is settled if nothing in it leads out of it: neither the scopes around its scopes, nor the functions
bound in them.  The literals of trees are given with them, those of the functions that are declared
in the territory too.

There are four ways to change scopes: bind a name that is not bound yet, declare a function, give a
variable another value, and make a scope inside another one.  `Scopes.Change` says what each of
them needs in order to stay in the territory.  All that is true of runs and their scopes follows
from what one change does.
-/

namespace ScopeScript

/-- The scope that a function was declared in. -/
def Value.home? : Value → Option ScopeId
  | .function home _ => some home
  | _ => none

/-- The scopes that a run may come to. -/
structure Territory where
  /-- the scopes that it is given -/
  given : ScopeId → Prop
  /-- the least scope that is made by the run -/
  since : ScopeId
  /-- the scopes that may get names -/
  isOpen : ScopeId → Prop

namespace Territory

variable (T : Territory) (scopes : Scopes)

/-- A scope that was given to the run or was made by it. -/
def Holds (id : ScopeId) : Prop := T.given id ∨ T.since ≤ id ∧ id < scopes.cells.size

/-- A value that is no function, or one that was declared in the territory. -/
def HoldsValue (value : Value) : Prop := ∀ home, value.home? = some home → T.Holds scopes home

/-- A value that is no function, or one that was declared in a scope that the run was given. -/
def GivesValue (value : Value) : Prop := ∀ home, value.home? = some home → T.given home

/-- A tree whose literals were given to the run. -/
def GivesTree (node : Node) : Prop := node.EveryLiteral T.GivesValue

/-- Trees whose literals were given to the run. -/
def GivesTrees (nodes : List Node) : Prop := Node.EveryLiteralIn T.GivesValue nodes

/-- Nothing in the territory leads out of it, and new scopes may get names. -/
structure Settled : Prop where
  since : T.since ≤ scopes.cells.size
  fresh : ∀ id, scopes.cells.size ≤ id → T.isOpen id
  outer : ∀ id, T.Holds scopes id → ∀ other ∈ (scopes.get id).outer, T.Holds scopes other
  values : ∀ id, T.Holds scopes id →
    ∀ entry ∈ (scopes.get id).bindings, T.HoldsValue scopes entry.2.value
  bodies : ∀ id, T.Holds scopes id →
    ∀ entry ∈ (scopes.get id).functions, T.GivesTree entry.2.body

variable {T} {scopes}

theorem GivesValue.holds {value : Value} (h : T.GivesValue value) : T.HoldsValue scopes value :=
  fun home hhome => .inl (h home hhome)

theorem holdsValue_of_home?_eq_none {value : Value} (h : value.home? = none) :
    T.HoldsValue scopes value := by
  intro home hhome
  rw [h] at hhome
  cases hhome

theorem Holds.mono {later : Scopes} (size : scopes.cells.size ≤ later.cells.size) {id : ScopeId}
    (h : T.Holds scopes id) : T.Holds later id :=
  h.imp_right fun made => ⟨made.1, Nat.lt_of_lt_of_le made.2 size⟩

theorem HoldsValue.mono {later : Scopes} (size : scopes.cells.size ≤ later.cells.size)
    {value : Value} (h : T.HoldsValue scopes value) : T.HoldsValue later value :=
  fun home hhome => (h home hhome).mono size

namespace Settled

variable (settled : T.Settled scopes)

include settled

/-- A scope of the territory and all scopes around it lie in it. -/
theorem chain {id : ScopeId} (h : T.Holds scopes id) {other : ScopeId}
    (hother : other ∈ scopes.chain id) : T.Holds scopes other := by
  rcases List.mem_cons.mp hother with rfl | hother
  · exact h
  · exact settled.outer id h other hother

/-- A name seen from the territory is bound in it. -/
theorem resolve {id : ScopeId} (h : T.Holds scopes id) {name : Name} {target : ScopeId}
    (found : scopes.resolve? id name = some target) : T.Holds scopes target :=
  settled.chain h (List.mem_of_find?_eq_some found)

/-- The value of a name seen from the territory lies in it. -/
theorem lookup {id : ScopeId} (h : T.Holds scopes id) {name : Name} {value : Value}
    (found : scopes.lookup id name = .ok value) : T.HoldsValue scopes value := by
  unfold Scopes.lookup at found
  split at found
  · rename_i binding hfound
    cases found
    obtain ⟨target, htarget, hbinding⟩ := Option.bind_eq_some_iff.mp hfound
    obtain ⟨before, behind, hsplit, -⟩ := List.lookup_eq_some_iff.mp hbinding
    exact settled.values target (settled.resolve h htarget) (name.key, binding)
      (by rw [hsplit]; simp)
  · cases found

/-- The body of a function of the territory, also of one that has no code. -/
theorem code {home : ScopeId} (h : T.Holds scopes home) (name : Name) :
    T.GivesTree (scopes.code home name).body := by
  unfold Scopes.code
  cases hcode : (scopes.get home).functions.lookup name with
  | none => simp [GivesTree, Node.EveryLiteral, Code.empty, Node.literals, Node.literalsIn]
  | some code =>
    obtain ⟨before, behind, hsplit, -⟩ := List.lookup_eq_some_iff.mp hcode
    exact settled.bodies home h (name, code) (by rw [hsplit]; simp)

end Settled

/-! ### All scopes -/

/-- All scopes there are, of which some may get names. -/
def everywhere (isOpen : ScopeId → Prop) : Territory := ⟨fun _ => True, 0, isOpen⟩

variable {isOpen : ScopeId → Prop}

theorem holds_everywhere (scopes : Scopes) (id : ScopeId) : (everywhere isOpen).Holds scopes id :=
  .inl trivial

theorem givesTree_everywhere (node : Node) : (everywhere isOpen).GivesTree node :=
  fun _ _ _ _ => trivial

theorem givesTrees_everywhere (nodes : List Node) : (everywhere isOpen).GivesTrees nodes :=
  fun _ _ _ _ => trivial

theorem settled_everywhere (fresh : ∀ id, scopes.cells.size ≤ id → isOpen id) :
    (everywhere isOpen).Settled scopes :=
  ⟨Nat.zero_le _, fresh, fun _ _ _ _ => holds_everywhere _ _,
    fun _ _ _ _ _ _ => holds_everywhere _ _, fun _ _ _ _ => givesTree_everywhere _⟩

end Territory

/-! ## Changes -/

/-- One change of the scopes in a territory. -/
inductive Scopes.Change (T : Territory) (scopes : Scopes) : Scopes → Prop
  /-- a name is bound in a scope that does not bind it yet -/
  | bind {id : ScopeId} {name : Name} {value : Value} (isConst : Bool) (isOpen : T.isOpen id)
    (here : T.Holds scopes id) (holds : T.HoldsValue scopes value)
    (free : scopes.binding? id name = none) : Change T scopes (scopes.bind id name value isConst)
  /-- a function is declared in a scope that does not bind its name yet -/
  | bindFunction {id : ScopeId} {name : Name} {code : Code} (isOpen : T.isOpen id)
    (here : T.Holds scopes id) (gives : T.GivesTree code.body)
    (free : scopes.binding? id name = none) : Change T scopes (scopes.bindFunction id name code)
  /-- a variable gets another value -/
  | store {id : ScopeId} {name : Name} {value : Value} (here : T.Holds scopes id)
    (holds : T.HoldsValue scopes value) (assignable : scopes.assignProblem? id name = none) :
    Change T scopes (scopes.store id name value)
  /-- a scope is made inside another one -/
  | add {id : ScopeId} (here : T.Holds scopes id) :
    Change T scopes (scopes.add (scopes.chain id)).2

/-- Any number of changes, one after the other. -/
abbrev Scopes.Changes (T : Territory) : Scopes → Scopes → Prop :=
  Relation.ReflTransGen (Scopes.Change T)

namespace Scopes

variable {T : Territory} {scopes : Scopes}

@[simp] theorem size_modify (scopes : Scopes) (id : ScopeId) (change : Scope → Scope) :
    (scopes.modify id change).cells.size = scopes.cells.size := by
  simp [modify]

@[simp] theorem size_bind (scopes : Scopes) (id : ScopeId) (name : Name) (value : Value)
    (isConst : Bool) : (scopes.bind id name value isConst).cells.size = scopes.cells.size := by
  simp [bind]

@[simp] theorem size_bindFunction (scopes : Scopes) (id : ScopeId) (name : Name) (code : Code) :
    (scopes.bindFunction id name code).cells.size = scopes.cells.size := by
  simp [bindFunction]

@[simp] theorem size_store (scopes : Scopes) (id : ScopeId) (name : Name) (value : Value) :
    (scopes.store id name value).cells.size = scopes.cells.size := by
  unfold store
  split <;> simp

@[simp] theorem size_add (scopes : Scopes) (outer : List ScopeId) :
    (scopes.add outer).2.cells.size = scopes.cells.size + 1 := by
  simp [add]

theorem get_add_old {outer : List ScopeId} {id : ScopeId} (old : id ≠ scopes.cells.size) :
    (scopes.add outer).2.get id = scopes.get id := by
  rw [get_add]
  exact if_neg old

theorem get_add_new (scopes : Scopes) (outer : List ScopeId) :
    (scopes.add outer).2.get scopes.cells.size = { outer := outer } := by
  rw [get_add]
  exact if_pos rfl

/-- A scope of the territory is the one that was just made, or was in the territory before. -/
theorem holds_add {outer : List ScopeId} {id : ScopeId} (h : T.Holds (scopes.add outer).2 id)
    (old : id ≠ scopes.cells.size) : T.Holds scopes id := by
  rcases h with given | ⟨since, bound⟩
  · exact .inl given
  · rw [size_add] at bound
    exact .inr ⟨since, Nat.lt_of_le_of_ne (Nat.le_of_lt_succ bound) old⟩

/-- No scope goes away. -/
theorem Change.size_le {later : Scopes} (change : Change T scopes later) :
    scopes.cells.size ≤ later.cells.size := by
  cases change <;> simp

/-- In a territory that stays the same, a change of one of its scopes keeps it settled if what that
scope holds then lies in it. -/
theorem settled_modify (settled : T.Settled scopes) {id : ScopeId} {change : Scope → Scope}
    (outer : ∀ other ∈ (change (scopes.get id)).outer, T.Holds scopes other)
    (values : ∀ entry ∈ (change (scopes.get id)).bindings, T.HoldsValue scopes entry.2.value)
    (bodies : ∀ entry ∈ (change (scopes.get id)).functions, T.GivesTree entry.2.body) :
    T.Settled (scopes.modify id change) := by
  have size : (scopes.modify id change).cells.size = scopes.cells.size := size_modify _ _ _
  have held : ∀ {other : ScopeId}, T.Holds (scopes.modify id change) other → T.Holds scopes other :=
    Territory.Holds.mono (Nat.le_of_eq size)
  constructor
  · rw [size]
    exact settled.since
  · rw [size]
    exact settled.fresh
  · intro other here around haround
    refine Territory.Holds.mono (Nat.le_of_eq size.symm) ?_
    rw [get_modify] at haround
    split at haround
    · rename_i same
      rw [same.1] at haround
      exact outer around haround
    · exact settled.outer other (held here) around haround
  · intro other here entry hentry
    refine Territory.HoldsValue.mono (Nat.le_of_eq size.symm) ?_
    rw [get_modify] at hentry
    split at hentry
    · rename_i same
      rw [same.1] at hentry
      exact values entry hentry
    · exact settled.values other (held here) entry hentry
  · intro other here entry hentry
    rw [get_modify] at hentry
    split at hentry
    · rename_i same
      rw [same.1] at hentry
      exact bodies entry hentry
    · exact settled.bodies other (held here) entry hentry

theorem settled_bind (settled : T.Settled scopes) {id : ScopeId} {name : Name} {value : Value}
    (isConst : Bool) (here : T.Holds scopes id) (holds : T.HoldsValue scopes value) :
    T.Settled (scopes.bind id name value isConst) := by
  refine settled_modify settled (settled.outer id here) ?_ (settled.bodies id here)
  intro entry hentry
  rcases List.mem_append.mp hentry with old | new
  · exact settled.values id here entry old
  · rw [List.mem_singleton.mp new]
    exact holds

theorem settled_bindFunction (settled : T.Settled scopes) {id : ScopeId} (name : Name) {code : Code}
    (here : T.Holds scopes id) (gives : T.GivesTree code.body) :
    T.Settled (scopes.bindFunction id name code) := by
  have holds : T.HoldsValue scopes (.function id name) := by
    rintro home ⟨rfl⟩
    exact here
  have bound : T.Settled (scopes.bind id name (.function id name) true) :=
    settled_bind settled true here holds
  have here' : T.Holds (scopes.bind id name (.function id name) true) id := here.mono (by simp)
  refine settled_modify bound (bound.outer id here') (bound.values id here') ?_
  intro entry hentry
  rcases List.mem_append.mp hentry with old | new
  · exact bound.bodies id here' entry old
  · rw [List.mem_singleton.mp new]
    exact gives

theorem settled_store (settled : T.Settled scopes) {id : ScopeId} (name : Name) {value : Value}
    (here : T.Holds scopes id) (holds : T.HoldsValue scopes value) :
    T.Settled (scopes.store id name value) := by
  unfold Scopes.store
  split
  · rename_i target htarget
    have there := settled.resolve here htarget
    refine settled_modify settled (settled.outer target there) ?_ (settled.bodies target there)
    intro entry hentry
    obtain ⟨old, hold, rfl⟩ := List.mem_map.mp hentry
    split
    · exact holds
    · exact settled.values target there old hold
  · exact settled

/-- A new scope is empty, and what surrounds it is held already. -/
theorem settled_add (settled : T.Settled scopes) {id : ScopeId} (here : T.Holds scopes id) :
    T.Settled (scopes.add (scopes.chain id)).2 := by
  have grown : scopes.cells.size ≤ (scopes.add (scopes.chain id)).2.cells.size := by simp
  constructor
  · exact Nat.le_trans settled.since grown
  · intro other bound
    exact settled.fresh other (Nat.le_trans grown bound)
  · intro other here' around haround
    rw [get_add] at haround
    split at haround
    · exact (settled.chain here haround).mono grown
    · rename_i differs
      exact (settled.outer other (holds_add here' differs) around haround).mono grown
  · intro other here' entry hentry
    rw [get_add] at hentry
    split at hentry
    · cases hentry
    · rename_i differs
      exact (settled.values other (holds_add here' differs) entry hentry).mono grown
  · intro other here' entry hentry
    rw [get_add] at hentry
    split at hentry
    · cases hentry
    · rename_i differs
      exact settled.bodies other (holds_add here' differs) entry hentry

/-- A settled territory stays settled. -/
theorem Change.settled {later : Scopes} (change : Change T scopes later)
    (settled : T.Settled scopes) : T.Settled later := by
  cases change with
  | bind isConst isOpen here holds free => exact settled_bind settled isConst here holds
  | bindFunction isOpen here gives free => exact settled_bindFunction settled _ here gives
  | store here holds assignable => exact settled_store settled _ here holds
  | add here => exact settled_add settled here

/-- A scope that was there and does not lie in the territory stays as it is. -/
theorem Change.outside {later : Scopes} (change : Change T scopes later)
    (settled : T.Settled scopes) {id : ScopeId} (bound : id < scopes.cells.size)
    (outside : ¬ T.Holds scopes id) : later.get id = scopes.get id := by
  have differs : ∀ {other : ScopeId}, T.Holds scopes other → id ≠ other := by
    rintro other here rfl
    exact outside here
  cases change with
  | bind isConst isOpen here holds free =>
    rw [Scopes.bind, get_modify, if_neg (fun same => differs here same.1)]
  | bindFunction isOpen here gives free =>
    rw [Scopes.bindFunction, get_modify, if_neg (fun same => differs here same.1), Scopes.bind,
      get_modify, if_neg (fun same => differs here same.1)]
  | store here holds assignable =>
    unfold Scopes.store
    split
    · rename_i target htarget
      rw [get_modify, if_neg (fun same => differs (settled.resolve here htarget) same.1)]
    · rfl
  | add here => exact get_add_old (Nat.ne_of_lt bound)

/-! ## Any number of changes -/

theorem Changes.size_le {later : Scopes} (changes : Changes T scopes later) :
    scopes.cells.size ≤ later.cells.size := by
  induction changes with
  | refl => exact Nat.le_refl _
  | tail _ change ih => exact Nat.le_trans ih change.size_le

theorem Changes.settled {later : Scopes} (changes : Changes T scopes later)
    (settled : T.Settled scopes) : T.Settled later := by
  induction changes with
  | refl => exact settled
  | tail _ change ih => exact change.settled ih

/-- A scope that was there and was not given to the run stays as it is. -/
theorem Changes.outside {later : Scopes} (changes : Changes T scopes later)
    (settled : T.Settled scopes) {id : ScopeId} (bound : id < T.since) (outside : ¬ T.given id) :
    later.get id = scopes.get id := by
  induction changes with
  | refl => rfl
  | tail before change ih =>
    have settled' := Changes.settled before settled
    rw [change.outside settled' (Nat.lt_of_lt_of_le bound settled'.since), ih]
    rintro (given | made)
    · exact outside given
    · exact Nat.not_le_of_lt bound made.1

end Scopes

end ScopeScript
