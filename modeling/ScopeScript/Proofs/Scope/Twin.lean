import ScopeScript.Eval.Property
import ScopeScript.Proofs.Eval.Operator
import ScopeScript.Proofs.Scope.Territory
set_option autoImplicit false

/-!
# Scope: the same scopes under other numbers

Scopes are told apart by their numbers, and a new scope takes the number of scopes there are.  So a
run that starts among other scopes gives its own scopes other numbers, and functions that were
declared in them with those.  Nothing else that a script or a host does with values depends on the
numbers.

Scopes are twins of others in a territory if they hold the same there, under numbers that differ by
a renumbering.  What is found, bound and stored in the one is found, bound and stored in the other.
-/

namespace ScopeScript

variable (ρ : ScopeId → ScopeId)

/-! ## Values -/

/-- The value with the scope of a function renumbered. -/
def Value.renumber : Value → Value
  | .function home name => .function (ρ home) name
  | value => value

namespace Value

variable {ρ}

theorem renumber_of_home? {value : Value} (h : value.home? = none) : value.renumber ρ = value := by
  cases value with
  | function home name => cases h
  | _ => rfl

@[simp] theorem isSentinel_renumber (value : Value) :
    (value.renumber ρ).isSentinel = value.isSentinel := by
  cases value <;> rfl

@[simp] theorem isTruthy_renumber (value : Value) :
    (value.renumber ρ).isTruthy = value.isTruthy := by
  cases value <;> rfl

@[simp] theorem typeName_renumber (value : Value) :
    (value.renumber ρ).typeName = value.typeName := by
  cases value <;> rfl

theorem less_renumber (operator : String) (a b : Value) :
    Value.less operator (a.renumber ρ) (b.renumber ρ) = Value.less operator a b := by
  cases a <;> cases b <;> rfl

/-- A function is equal to no other value of its host. -/
theorem equal_function {host : Host} {home : ScopeId} {name : Name} {other : Value}
    (noFunction : other.home? = none) (noSentinel : other.isSentinel = false) :
    Value.equal host (.function home name) other = .ok false ∧
      Value.equal host other (.function home name) = .ok false := by
  cases other with
  | function => cases noFunction
  | sentinel => cases noSentinel
  | _ => simp [Value.equal, Host.equal, equalWith, numeric?, same]

/-- Equality does not depend on the numbers, as long as different scopes keep different ones. -/
theorem equal_renumber {host : Host} {a b : Value}
    (apart : ∀ home home', a.home? = some home → b.home? = some home' → ρ home = ρ home' →
      home = home') :
    Value.equal host (a.renumber ρ) (b.renumber ρ) = Value.equal host a b := by
  by_cases ha : a.home? = none
  · rw [renumber_of_home? ha]
    by_cases hb : b.home? = none
    · rw [renumber_of_home? hb]
    · cases b with
      | function home name =>
        cases hs : a.isSentinel with
        | true => cases a <;> first | rfl | cases hs
        | false => rw [renumber, (equal_function ha hs).2, (equal_function ha hs).2]
      | _ => exact absurd rfl hb
  · cases a with
    | function home name =>
      by_cases hb : b.home? = none
      · rw [renumber_of_home? hb]
        cases hs : b.isSentinel with
        | true => cases b <;> first | rfl | cases hs
        | false => rw [renumber, (equal_function hb hs).1, (equal_function hb hs).1]
      · cases b with
        | function home' name' =>
          have same : (ρ home == ρ home') = (home == home') := by
            rw [Bool.eq_iff_iff, beq_iff_eq, beq_iff_eq]
            exact ⟨apart home home' rfl rfl, fun h => h ▸ rfl⟩
          simp [renumber, Value.equal, same]
        | _ => exact absurd rfl hb
    | _ => exact absurd rfl ha

end Value

/-! ## Operators -/

section Operators

variable {ρ}

theorem Value.home?_of_isComputed {value : Value} (h : value.isComputed = true) :
    value.home? = none := by
  cases value with
  | function home name => cases h
  | _ => rfl

theorem UnaryOp.home?_apply {ctx : Context} {op : UnaryOp} {operand result : Value}
    (h : op.apply ctx operand = .ok result) : result.home? = none :=
  Value.home?_of_isComputed (isComputed_apply h)

theorem UnaryOp.apply_renumber (ctx : Context) (op : UnaryOp) (operand : Value) :
    op.apply ctx (operand.renumber ρ) = op.apply ctx operand := by
  cases operand with
  | function home name => cases op <;> rfl
  | _ => rfl

/-- The result of an operator is one of its operands or no function. -/
theorem BinaryOp.apply_cases {ctx : Context} {host : Host} {op : BinaryOp} {a b result : Value}
    (h : op.apply ctx host a b = .ok result) : result = a ∨ result = b ∨ result.home? = none :=
  (apply_result h).imp_right (Or.imp_right Value.home?_of_isComputed)

/-- No arithmetic operator has a function as its result. -/
theorem BinaryOp.map_renumber_arithmetic (ctx : Context) (op : BinaryOp) (x y : Number) :
    (op.arithmetic ctx x y).map (Value.renumber ρ) = op.arithmetic ctx x y := by
  cases h : op.arithmetic ctx x y with
  | ok result =>
    rw [Except.map, Value.renumber_of_home? (Value.home?_of_isComputed (isComputed_arithmetic h))]
  | error error => rfl

theorem BinaryOp.apply_renumber (ctx : Context) (host : Host) (op : BinaryOp) {a b : Value}
    (apart : ∀ home home', a.home? = some home → b.home? = some home' → ρ home = ρ home' →
      home = home') :
    op.apply ctx host (a.renumber ρ) (b.renumber ρ) =
      (op.apply ctx host a b).map (Value.renumber ρ) := by
  have truth : ∀ (compared : Except Error Bool) (f : Bool → Bool),
      (do let truth ← compared; Except.ok (Value.boolean (f truth))) =
        (do let truth ← compared; Except.ok (Value.boolean (f truth))).map (Value.renumber ρ) := by
    intro compared f
    cases compared <;> rfl
  unfold BinaryOp.apply
  cases op with
  | and | or =>
    simp only [Value.isTruthy_renumber]
    cases a.isTruthy with
    | error error => rfl
    | ok truthA =>
      cases b.isTruthy with
      | error error => cases truthA <;> rfl
      | ok truthB => cases truthA <;> cases truthB <;> rfl
  | equal =>
    simp only [Value.equal_renumber apart]
    exact truth _ id
  | unequal =>
    simp only [Value.equal_renumber apart]
    exact truth _ (! ·)
  | less | greater =>
    simp only [Value.less_renumber]
    exact truth _ id
  | add | subtract | multiply | divide | other =>
    cases a with
    | number x =>
      cases b with
      | number y => exact (map_renumber_arithmetic ctx _ x y).symm
      | _ => rfl
    | _ => rfl

end Operators

/-! ## Properties -/

section Properties

variable {ρ}

theorem Adapter.write_renumber (classes : HostClasses) (objects : HostObjects) (adapter : Adapter)
    (target : Value) (name : String) (value : Value) :
    adapter.write classes objects target name (value.renumber ρ) =
      adapter.write classes objects target name value := by
  cases value <;> rfl

theorem Settings.writePath_renumber (settings : Settings) (objects : HostObjects)
    (owner path : String) (value target : Value) (name : String) (rest : List String) :
    settings.writePath objects owner path (value.renumber ρ) target name rest =
      settings.writePath objects owner path value target name rest := by
  induction rest generalizing target name with
  | nil =>
    simp only [writePath, writeProperty, Adapter.write_renumber, Value.typeName_renumber]
  | cons next rest ih => simp only [writePath, ih]

/-- What a script reads of a host is no function. -/
theorem Value.home?_ofHost {value result : Value} (h : value.ofHost = .ok result) :
    result.home? = none := by
  unfold ofHost at h
  split at h
  · cases h
    rfl
  · split at h
    · cases h
      rfl
    · split at h <;> cases h
  · split at h
    · cases h
      rfl
    · cases h
  · cases h
    rfl
  · cases h

end Properties

/-! ## Scopes -/

/-- The binding with its value renumbered. -/
def Binding.renumber (binding : Binding) : Binding :=
  { binding with value := binding.value.renumber ρ }

/-- The scope with all that it refers to renumbered. -/
def Scope.renumber (scope : Scope) : Scope :=
  { outer := scope.outer.map ρ
    bindings := scope.bindings.map fun entry => (entry.1, entry.2.renumber ρ)
    functions := scope.functions }

/-- What a scope refers to decides how it is renumbered. -/
theorem Scope.renumber_eq_self {ρ : ScopeId → ScopeId} {scope : Scope}
    (outer : ∀ id ∈ scope.outer, ρ id = id)
    (values : ∀ entry ∈ scope.bindings, entry.2.value.renumber ρ = entry.2.value) :
    scope.renumber ρ = scope := by
  obtain ⟨around, bindings, functions⟩ := scope
  unfold Scope.renumber
  congr 1
  · exact (List.map_congr_left outer).trans (List.map_id' around)
  · refine (List.map_congr_left ?_).trans (List.map_id' bindings)
    intro entry hentry
    rw [Binding.renumber, values entry hentry]

@[simp] theorem Value.renumber_id (value : Value) : value.renumber id = value := by
  cases value <;> rfl

@[simp] theorem Scope.renumber_id (scope : Scope) : scope.renumber id = scope :=
  Scope.renumber_eq_self (fun _ _ => rfl) fun entry _ => entry.2.value.renumber_id

/-- A renumbering keeps the scopes of a territory apart, also those that are yet to be made. -/
def Territory.Apart (T : Territory) : Prop :=
  ∀ a b, T.given a ∨ T.since ≤ a → T.given b ∨ T.since ≤ b → ρ a = ρ b → a = b

/-- Scopes that hold the same as others in a settled territory, under other numbers. -/
structure Scopes.Twin (T : Territory) (scopes scopes' : Scopes) : Prop where
  apart : T.Apart ρ
  fixed : ∀ id, T.given id → ρ id = id
  settled : T.Settled scopes
  next : ∀ count, ρ (scopes.cells.size + count) = scopes'.cells.size + count
  exist : ∀ id, T.Holds scopes id → (id < scopes.cells.size ↔ ρ id < scopes'.cells.size)
  get : ∀ id, T.Holds scopes id → scopes'.get (ρ id) = (scopes.get id).renumber ρ

namespace Scopes

variable {ρ} {T : Territory} {scopes scopes' : Scopes}

/-- Scopes are twins of themselves in every settled territory. -/
theorem twin_self (settled : T.Settled scopes) : scopes.Twin id T scopes :=
  ⟨fun _ _ _ _ h => h, fun _ _ => rfl, settled, fun _ => rfl, fun _ _ => Iff.rfl,
    fun id _ => ((scopes.get id).renumber_id).symm⟩

namespace Twin

variable (twin : scopes.Twin ρ T scopes')

include twin

/-- Values that were given keep their numbers. -/
theorem renumber_given {value : Value} (gives : T.GivesValue value) : value.renumber ρ = value := by
  cases value with
  | function home name => rw [Value.renumber, twin.fixed home (gives home rfl)]
  | _ => rfl

theorem chain {id : ScopeId} (here : T.Holds scopes id) :
    scopes'.chain (ρ id) = (scopes.chain id).map ρ := by
  rw [Scopes.chain, twin.get id here]
  rfl

theorem binding? {id : ScopeId} (here : T.Holds scopes id) (name : Name) :
    scopes'.binding? (ρ id) name = (scopes.binding? id name).map (Binding.renumber ρ) := by
  rw [Scopes.binding?, twin.get id here]
  exact Entries.lookup_map _ _ _

theorem resolve? {id : ScopeId} (here : T.Holds scopes id) (name : Name) :
    scopes'.resolve? (ρ id) name = (scopes.resolve? id name).map ρ := by
  rw [Scopes.resolve?, twin.chain here, List.find?_map]
  have same : ∀ other ∈ scopes.chain id,
      (scopes'.binding? (ρ other) name).isSome = (scopes.binding? other name).isSome := by
    intro other hother
    rw [twin.binding? (twin.settled.chain here hother), Option.isSome_map]
  rw [Scopes.resolve?]
  congr 1
  generalize scopes.chain id = chain at same
  induction chain with
  | nil => rfl
  | cons first rest ih =>
    rw [List.find?_cons, List.find?_cons, Function.comp_apply, same first (by simp),
      ih fun other hother => same other (by simp [hother])]

/-- The nearest binding of a name is the same. -/
theorem nearest {id : ScopeId} (here : T.Holds scopes id) (name : Name) :
    ((scopes'.resolve? (ρ id) name).bind fun scope => scopes'.binding? scope name) =
      ((scopes.resolve? id name).bind fun scope => scopes.binding? scope name).map
        (Binding.renumber ρ) := by
  rw [twin.resolve? here]
  cases h : scopes.resolve? id name with
  | none => rfl
  | some target => exact twin.binding? (twin.settled.resolve here h) name

theorem lookup {id : ScopeId} (here : T.Holds scopes id) (name : Name) :
    scopes'.lookup (ρ id) name = (scopes.lookup id name).map (Value.renumber ρ) := by
  unfold Scopes.lookup
  rw [twin.nearest here]
  cases (scopes.resolve? id name).bind fun scope => scopes.binding? scope name <;> rfl

theorem declareProblem? {id : ScopeId} (here : T.Holds scopes id) (name : Name) :
    scopes'.declareProblem? (ρ id) name = scopes.declareProblem? id name := by
  unfold Scopes.declareProblem?
  rw [twin.binding? here, Option.isSome_map]

theorem assignProblem? {id : ScopeId} (here : T.Holds scopes id) (name : Name) :
    scopes'.assignProblem? (ρ id) name = scopes.assignProblem? id name := by
  unfold Scopes.assignProblem?
  rw [twin.nearest here]
  cases (scopes.resolve? id name).bind fun scope => scopes.binding? scope name <;> rfl

theorem code {home : ScopeId} (here : T.Holds scopes home) (name : Name) :
    scopes'.code (ρ home) name = scopes.code home name := by
  unfold Scopes.code
  rw [twin.get home here]
  rfl

/-- Twins stay twins when a scope of the territory is changed in both alike. -/
theorem modify {id : ScopeId} (here : T.Holds scopes id) {change change' : Scope → Scope}
    (settled : T.Settled (scopes.modify id change))
    (alike : change' ((scopes.get id).renumber ρ) = (change (scopes.get id)).renumber ρ) :
    (scopes.modify id change).Twin ρ T (scopes'.modify (ρ id) change') := by
  have held : ∀ {other : ScopeId}, T.Holds (scopes.modify id change) other → T.Holds scopes other :=
    Territory.Holds.mono (Nat.le_of_eq (size_modify _ _ _))
  refine ⟨twin.apart, twin.fixed, settled, ?_, ?_, ?_⟩
  · simpa using twin.next
  · intro other hother
    simpa using twin.exist other (held hother)
  · intro other hother
    have there := held hother
    have same : (ρ other = ρ id ∧ ρ id < scopes'.cells.size) ↔
        (other = id ∧ id < scopes.cells.size) := by
      rw [twin.exist id here]
      refine and_congr_left fun _ => ⟨?_, fun h => h ▸ rfl⟩
      exact twin.apart other id (there.imp_right And.left) (here.imp_right And.left)
    rw [get_modify, get_modify]
    simp only [same]
    split
    · rename_i changed
      obtain ⟨rfl, -⟩ := changed
      rw [twin.get other there, alike]
    · exact twin.get other there

theorem bind {id : ScopeId} (here : T.Holds scopes id) (name : Name) {value : Value}
    (holds : T.HoldsValue scopes value) (isConst : Bool) :
    (scopes.bind id name value isConst).Twin ρ T
      (scopes'.bind (ρ id) name (value.renumber ρ) isConst) := by
  refine twin.modify here (settled_bind twin.settled isConst here holds) ?_
  simp [Scope.renumber, Binding.renumber]

theorem bindFunction {id : ScopeId} (here : T.Holds scopes id) (isOpen : T.isOpen id) {name : Name}
    {code : Code} (gives : T.GivesTree code.body)
    (free : scopes.binding? id name = none) :
    (scopes.bindFunction id name code).Twin ρ T (scopes'.bindFunction (ρ id) name code) := by
  have holds : T.HoldsValue scopes (.function id name) := by
    rintro home ⟨rfl⟩
    exact here
  have bound := twin.bind here name holds true
  refine bound.modify (here.mono (by simp)) ?_ rfl
  exact (Change.bindFunction isOpen here gives free).settled twin.settled

theorem store {id : ScopeId} (here : T.Holds scopes id) {name : Name} {value : Value}
    (holds : T.HoldsValue scopes value) (assignable : scopes.assignProblem? id name = none) :
    (scopes.store id name value).Twin ρ T (scopes'.store (ρ id) name (value.renumber ρ)) := by
  have settled := (Change.store here holds assignable).settled twin.settled
  unfold Scopes.store at settled ⊢
  rw [twin.resolve? here]
  cases h : scopes.resolve? id name with
  | none => exact twin
  | some target =>
    rw [h] at settled
    refine twin.modify (twin.settled.resolve here h) settled ?_
    simp only [Scope.renumber, Entries.change, List.map_map, Scope.mk.injEq, true_and, and_true]
    apply List.map_congr_left
    intro entry _
    simp only [Function.comp_apply]
    split <;> rfl

theorem add {id : ScopeId} (here : T.Holds scopes id) :
    (scopes.add (scopes.chain id)).2.Twin ρ T (scopes'.add (scopes'.chain (ρ id))).2 := by
  have newest : ρ scopes.cells.size = scopes'.cells.size := twin.next 0
  have apart : ∀ {other : ScopeId}, T.Holds (scopes.add (scopes.chain id)).2 other →
      other ≠ scopes.cells.size → ρ other ≠ scopes'.cells.size := by
    intro other hother old same
    exact old (twin.apart other scopes.cells.size (hother.imp_right And.left)
      (.inr twin.settled.since) (same.trans newest.symm))
  refine ⟨twin.apart, twin.fixed, (Change.add here).settled twin.settled, ?_, ?_, ?_⟩
  · intro count
    have := twin.next (count + 1)
    rw [size_add, size_add]
    rwa [Nat.add_assoc, Nat.add_assoc, Nat.add_comm 1 count]
  · intro other hother
    rw [size_add, size_add]
    by_cases new : other = scopes.cells.size
    · subst new
      rw [newest]
      exact iff_of_true (Nat.lt_succ_self _) (Nat.lt_succ_self _)
    · have old := twin.exist other (holds_add hother new)
      have differs := apart hother new
      change other < scopes.cells.size + 1 ↔ ρ other < scopes'.cells.size + 1
      rw [Nat.lt_succ_iff_lt_or_eq, Nat.lt_succ_iff_lt_or_eq, or_iff_left new,
        or_iff_left differs, old]
  · intro other hother
    by_cases new : other = scopes.cells.size
    · rw [new, newest, get_add_new, get_add_new, twin.chain here]
      rfl
    · rw [get_add_old new, get_add_old (apart hother new), twin.get other (holds_add hother new)]

end Twin

end Scopes

end ScopeScript
