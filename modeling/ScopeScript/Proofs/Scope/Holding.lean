import ScopeScript.Scope
set_option autoImplicit false

/-!
# Scope: what scopes hold

Scopes hold values, which names are bound to, and the code of functions.  A condition on values and
one on code hold of all scopes from one operation to the next if they hold of what is put in.
-/

namespace ScopeScript

/-- Every value that is bound satisfies `V`, and the code of every function satisfies `K`. -/
structure Scopes.Holding (V : Value → Prop) (K : Code → Prop) (scopes : Scopes) : Prop where
  values : ∀ id, ∀ entry ∈ (scopes.get id).bindings, V entry.2.value
  codes : ∀ id, ∀ entry ∈ (scopes.get id).functions, K entry.2

namespace Scopes.Holding

variable {V : Value → Prop} {K : Code → Prop} {scopes : Scopes}

/-- One scope may be changed to one that holds the like. -/
theorem modify (holding : scopes.Holding V K) {change : Scope → Scope} {id : ScopeId}
    (values : ∀ entry ∈ (change (scopes.get id)).bindings, V entry.2.value)
    (codes : ∀ entry ∈ (change (scopes.get id)).functions, K entry.2) :
    (scopes.modify id change).Holding V K := by
  constructor
  · intro other entry hentry
    rw [get_modify] at hentry
    split at hentry
    · rename_i same
      rw [same.1] at hentry
      exact values entry hentry
    · exact holding.values other entry hentry
  · intro other entry hentry
    rw [get_modify] at hentry
    split at hentry
    · rename_i same
      rw [same.1] at hentry
      exact codes entry hentry
    · exact holding.codes other entry hentry

theorem bind (holding : scopes.Holding V K) {value : Value} (fine : V value) (id : ScopeId)
    (name : Name) (isConst : Bool) : (scopes.bind id name value isConst).Holding V K := by
  refine holding.modify ?_ (holding.codes id)
  intro entry hentry
  rcases List.mem_append.mp hentry with old | new
  · exact holding.values id entry old
  · rw [List.mem_singleton.mp new]
    exact fine

theorem bindFunction (holding : scopes.Holding V K) {id : ScopeId} {name : Name} {code : Code}
    (fine : V (.function id name)) (fineCode : K code) :
    (scopes.bindFunction id name code).Holding V K := by
  have bound := holding.bind fine id name true
  refine bound.modify (bound.values id) ?_
  intro entry hentry
  rcases List.mem_append.mp hentry with old | new
  · exact bound.codes id entry old
  · rw [List.mem_singleton.mp new]
    exact fineCode

theorem store (holding : scopes.Holding V K) {value : Value} (fine : V value) (id : ScopeId)
    (name : Name) : (scopes.store id name value).Holding V K := by
  unfold Scopes.store
  split
  · rename_i scope _
    refine holding.modify ?_ (holding.codes scope)
    intro entry hentry
    obtain ⟨old, hold, rfl⟩ := List.mem_map.mp hentry
    split
    · exact fine
    · exact holding.values scope old hold
  · exact holding

theorem add (holding : scopes.Holding V K) (outer : List ScopeId) :
    (scopes.add outer).2.Holding V K := by
  constructor
  · intro id entry hentry
    rw [get_add] at hentry
    split at hentry
    · simp at hentry
    · exact holding.values id entry hentry
  · intro id entry hentry
    rw [get_add] at hentry
    split at hentry
    · simp at hentry
    · exact holding.codes id entry hentry

/-- The value of a name is one that is bound. -/
theorem lookup (holding : scopes.Holding V K) {id : ScopeId} {name : Name} {value : Value}
    (h : scopes.lookup id name = .ok value) : V value := by
  unfold Scopes.lookup at h
  split at h
  · rename_i binding hfound
    cases h
    obtain ⟨scope, -, hbinding⟩ := Option.bind_eq_some_iff.mp hfound
    obtain ⟨before, behind, hsplit, -⟩ := List.lookup_eq_some_iff.mp hbinding
    exact holding.values scope (name.key, binding) (by rw [hsplit]; simp)
  · cases h

/-- The code of every function is fine, also of those that have none. -/
theorem code (holding : scopes.Holding V K) (empty : K .empty) (home : ScopeId) (name : Name) :
    K (scopes.code home name) := by
  unfold Scopes.code
  cases h : (scopes.get home).functions.lookup name with
  | none => exact empty
  | some code =>
    obtain ⟨before, behind, hsplit, -⟩ := List.lookup_eq_some_iff.mp h
    exact holding.codes home (name, code) (by rw [hsplit]; simp)

end Scopes.Holding

end ScopeScript
