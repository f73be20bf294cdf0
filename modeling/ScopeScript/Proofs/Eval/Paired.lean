import ScopeScript.Proofs.Eval.Outcome
import ScopeScript.Proofs.Tree.OutOfScope
set_option autoImplicit false

/-!
# Eval: two runs side by side

Two scripts that differ in uses of a name that are out of scope are run from the same state.  The
states that they come to differ in the bodies of functions only, and there in such uses.  What
carries the proofs is a fence: scopes that bind neither the one name nor the other and never will,
since no code that runs in them declares one.  A function may differ only if all scopes that it sees
are inside the fence.  The fence grows while the runs go on, by scopes that are new.
-/

namespace ScopeScript

/-- Errors that are the same, but for `z` in the place of `x` in what they name. -/
inductive Error.Alike (x z : String) : Error → Error → Prop
  | same (error : Error) : Alike x z error error
  | unbound : Alike x z (.unbound (.text x)) (.unbound (.text z))
  | noValue (properties : List String) :
    Alike x z (.noValue ("value assigned to '" ++ Node.path x properties ++ "'"))
      (.noValue ("value assigned to '" ++ Node.path z properties ++ "'"))

/-- The scopes inside a fence. -/
abbrev Fence : Type := ScopeId → Prop

/-- The fence with a new scope in it, if that is to be inside. -/
def Fence.extend (F : Fence) (fenced : Prop) (new : ScopeId) : Fence :=
  fun id => F id ∨ fenced ∧ id = new

/-- A scope and those around it are inside the fence. -/
def Scopes.Inside (F : Fence) (scopes : Scopes) (id : ScopeId) : Prop :=
  ∀ other ∈ scopes.chain id, F other

/-- The code of a function in two runs: where they differ, the function sees scopes inside the fence
only, and does not mention `z` itself.  If `strict` holds, no function mentions `z` at all. -/
def Code.Alike (x z : String) (strict : Prop) (F : Fence) (scopes : Scopes) (home : ScopeId)
    (code code' : Code) : Prop :=
  ∃ declared : Bool, code' = code.redirect x z declared ∧
    (declared = false → scopes.Inside F home) ∧
    (declared = false ∨ strict → code.mentions z = false)

/-- The scopes of two runs, which differ in the code of functions only. -/
structure Scopes.Paired (x z : String) (strict : Prop) (F : Fence) (scopes scopes' : Scopes) :
    Prop where
  size : scopes'.cells.size = scopes.cells.size
  outer : ∀ id, (scopes'.get id).outer = (scopes.get id).outer
  bindings : ∀ id, (scopes'.get id).bindings = (scopes.get id).bindings
  functions : ∀ id name, Option.Rel (Code.Alike x z strict F scopes id)
    ((scopes.get id).functions.lookup name) ((scopes'.get id).functions.lookup name)
  exist : ∀ id, F id → id < scopes.cells.size
  free : ∀ id, F id → scopes.binding? id (.text x) = none ∧ scopes.binding? id (.text z) = none

/-- The states of two runs, which differ in the code of functions only. -/
def Machine.Paired (x z : String) (strict : Prop) (F : Fence) (m m' : Machine) : Prop :=
  ∃ scopes', m' = { m with scopes := scopes' } ∧ m.scopes.Paired x z strict F scopes'

/-- A later moment of a run: scopes were added, some of them inside the fence. -/
structure Scopes.Later (F : Fence) (scopes : Scopes) (F' : Fence) (later : Scopes) : Prop where
  size : scopes.cells.size ≤ later.cells.size
  outer : ∀ id, id < scopes.cells.size → (later.get id).outer = (scopes.get id).outer
  grows : ∀ id, F id → F' id
  old : ∀ id, id < scopes.cells.size → F' id → F id

variable {x z : String} {strict : Prop} {F F₁ F₂ : Fence}

/-! ## Later moments -/

namespace Scopes

theorem Later.refl (F : Fence) (scopes : Scopes) : scopes.Later F F scopes :=
  ⟨Nat.le_refl _, fun _ _ => rfl, fun _ h => h, fun _ _ h => h⟩

theorem Later.trans {scopes scopes₁ scopes₂ : Scopes} (h : scopes.Later F F₁ scopes₁)
    (h' : scopes₁.Later F₁ F₂ scopes₂) : scopes.Later F F₂ scopes₂ := by
  constructor
  · exact Nat.le_trans h.size h'.size
  · intro id bound
    rw [h'.outer id (Nat.lt_of_lt_of_le bound h.size), h.outer id bound]
  · intro id inside
    exact h'.grows id (h.grows id inside)
  · intro id bound inside
    exact h.old id bound (h'.old id (Nat.lt_of_lt_of_le bound h.size) inside)

/-- A scope that is inside the fence stays there, with all scopes around it. -/
theorem Later.inside {scopes later : Scopes} (h : scopes.Later F F₁ later)
    (exist : ∀ id, F id → id < scopes.cells.size) {id : ScopeId} (inside : scopes.Inside F id) :
    later.Inside F₁ id := by
  have bound : id < scopes.cells.size := exist id (inside id List.mem_cons_self)
  intro other hother
  unfold chain at hother
  rw [h.outer id bound] at hother
  exact h.grows other (inside other hother)

end Scopes

theorem Code.Alike.later {scopes later : Scopes} {home : ScopeId}
    {code code' : Code} (alike : code.Alike x z strict F scopes home code')
    (h : scopes.Later F F₁ later) (exist : ∀ id, F id → id < scopes.cells.size) :
    code.Alike x z strict F₁ later home code' := by
  obtain ⟨declared, same, inside, fresh⟩ := alike
  exact ⟨declared, same, fun free => h.inside exist (inside free), fresh⟩

/-! ## Scopes of two runs -/

/-- Only a word has the key of a word. -/
theorem Datum.eq_text_of_key {datum : Datum} {word : String} (h : datum.key = .text word) :
    datum = .text word := by
  cases datum <;> simp_all [Datum.key]

namespace Scopes

variable {scopes scopes' : Scopes}

theorem Paired.chain (paired : scopes.Paired x z strict F scopes') (id : ScopeId) :
    scopes'.chain id = scopes.chain id := by
  unfold Scopes.chain
  rw [paired.outer]

theorem Paired.binding? (paired : scopes.Paired x z strict F scopes') (id : ScopeId) (name : Name) :
    scopes'.binding? id name = scopes.binding? id name := by
  unfold Scopes.binding?
  rw [paired.bindings]

theorem Paired.resolve? (paired : scopes.Paired x z strict F scopes') (id : ScopeId) (name : Name) :
    scopes'.resolve? id name = scopes.resolve? id name := by
  unfold Scopes.resolve?
  rw [paired.chain]
  simp only [paired.binding?]

theorem Paired.lookup (paired : scopes.Paired x z strict F scopes') (id : ScopeId) (name : Name) :
    scopes'.lookup id name = scopes.lookup id name := by
  unfold Scopes.lookup
  rw [paired.resolve?]
  simp only [paired.binding?]

theorem Paired.declareProblem? (paired : scopes.Paired x z strict F scopes') (id : ScopeId)
    (name : Name) : scopes'.declareProblem? id name = scopes.declareProblem? id name := by
  unfold Scopes.declareProblem?
  rw [paired.binding?]

theorem Paired.assignProblem? (paired : scopes.Paired x z strict F scopes') (id : ScopeId)
    (name : Name) : scopes'.assignProblem? id name = scopes.assignProblem? id name := by
  unfold Scopes.assignProblem?
  rw [paired.resolve?]
  simp only [paired.binding?]

theorem Paired.code (paired : scopes.Paired x z strict F scopes') (home : ScopeId) (name : Name) :
    (scopes.code home name).Alike x z strict F scopes home (scopes'.code home name) := by
  have alike := paired.functions home name
  unfold Scopes.code
  generalize (scopes.get home).functions.lookup name = code? at alike ⊢
  generalize (scopes'.get home).functions.lookup name = code'? at alike ⊢
  cases alike with
  | none => exact ⟨true, rfl, by simp, fun _ => rfl⟩
  | some alike => exact alike

/-- No scope that is seen from inside the fence binds one of the two names. -/
theorem Paired.resolve?_inside (paired : scopes.Paired x z strict F scopes') {id : ScopeId}
    (inside : scopes.Inside F id) :
    scopes.resolve? id (.text x) = none ∧ scopes.resolve? id (.text z) = none := by
  unfold Scopes.resolve?
  simp only [List.find?_eq_none]
  constructor
  · intro other hother
    simp [(paired.free other (inside other hother)).1]
  · intro other hother
    simp [(paired.free other (inside other hother)).2]

/-- The functions of two runs stay alike. -/
theorem Paired.functions_later (paired : scopes.Paired x z strict F scopes') {later : Scopes}
    (h : scopes.Later F F₁ later) (id : ScopeId) (name : Name) :
    Option.Rel (Code.Alike x z strict F₁ later id)
      ((scopes.get id).functions.lookup name) ((scopes'.get id).functions.lookup name) := by
  have alike := paired.functions id name
  generalize (scopes.get id).functions.lookup name = code? at alike ⊢
  generalize (scopes'.get id).functions.lookup name = code'? at alike ⊢
  cases alike with
  | none => exact .none
  | some alike => exact .some (alike.later h paired.exist)

/-- A change of what one scope binds is made in both runs. -/
theorem Paired.modifyBindings (paired : scopes.Paired x z strict F scopes') {id : ScopeId}
    (change : Entries Datum Binding → Entries Datum Binding)
    (free : F id → (change (scopes.get id).bindings).lookup (.text x) = none ∧
      (change (scopes.get id).bindings).lookup (.text z) = none) :
    scopes.Later F F
        (scopes.modify id fun scope => { scope with bindings := change scope.bindings }) ∧
      (scopes.modify id fun scope => { scope with bindings := change scope.bindings }).Paired
        x z strict F
        (scopes'.modify id fun scope => { scope with bindings := change scope.bindings }) := by
  have later : scopes.Later F F
      (scopes.modify id fun scope => { scope with bindings := change scope.bindings }) := by
    refine ⟨by simp [modify], ?_, fun _ h => h, fun _ _ h => h⟩
    intro other _
    rw [get_modify]
    split <;> rfl
  refine ⟨later, ?_⟩
  constructor
  · simp [modify, paired.size]
  · intro other
    rw [get_modify, get_modify, paired.size]
    split <;> exact paired.outer other
  · intro other
    rw [get_modify, get_modify, paired.size]
    split
    · simp only [paired.bindings]
    · exact paired.bindings other
  · intro other name
    have kept := paired.functions_later later other name
    rw [get_modify, get_modify]
    split <;> split <;> exact kept
  · intro other inside
    have bound := paired.exist other inside
    simpa [modify] using bound
  · intro other inside
    have kept := paired.free other inside
    unfold Scopes.binding? at kept ⊢
    rw [get_modify]
    split
    · rename_i same
      rw [same.1] at inside ⊢
      simpa using free inside
    · exact kept

theorem Paired.bind (paired : scopes.Paired x z strict F scopes') {id : ScopeId} {name : Name}
    (other : F id → name ≠ .text x ∧ name ≠ .text z) (value : Value) (isConst : Bool) :
    scopes.Later F F (scopes.bind id name value isConst) ∧
      (scopes.bind id name value isConst).Paired x z strict F
        (scopes'.bind id name value isConst) := by
  refine paired.modifyBindings (· ++ [(name.key, ⟨name, value, isConst⟩)]) ?_
  intro inside
  have kept := paired.free id inside
  unfold Scopes.binding? at kept
  simp only [Datum.key_text] at kept
  have unlike : ∀ {word : String}, name ≠ .text word → ¬ Datum.text word = name.key := by
    intro word differs same
    exact differs (Datum.eq_text_of_key same.symm)
  simp only [Entries.lookup_append, Entries.lookup_cons, List.lookup_nil, kept.1, kept.2,
    if_neg (unlike (other inside).1), if_neg (unlike (other inside).2), Option.or_none, and_self]

theorem Paired.store (paired : scopes.Paired x z strict F scopes') (id : ScopeId) (name : Name)
    (value : Value) :
    scopes.Later F F (scopes.store id name value) ∧
      (scopes.store id name value).Paired x z strict F (scopes'.store id name value) := by
  unfold Scopes.store
  rw [paired.resolve?]
  split
  · rename_i scope _
    refine paired.modifyBindings (fun bindings => Entries.change bindings name.key fun binding =>
      { binding with value := value }) ?_
    intro inside
    have kept := paired.free scope inside
    unfold Scopes.binding? at kept
    simp only [Datum.key_text] at kept
    rw [Entries.lookup_change, Entries.lookup_change, kept.1, kept.2]
    simp
  · exact ⟨.refl F scopes, paired⟩

/-- A function is declared in both runs. -/
theorem Paired.bindFunction (paired : scopes.Paired x z strict F scopes') {id : ScopeId}
    {name : Name} (other : F id → name ≠ .text x ∧ name ≠ .text z) {code code' : Code}
    (alike : code.Alike x z strict F scopes id code') :
    scopes.Later F F (scopes.bindFunction id name code) ∧
      (scopes.bindFunction id name code).Paired x z strict F
        (scopes'.bindFunction id name code') := by
  obtain ⟨bound, paired₁⟩ := paired.bind other (.function id name) true
  have later : (scopes.bind id name (.function id name) true).Later F F
      (scopes.bindFunction id name code) := by
    refine ⟨by simp [Scopes.bindFunction, modify], ?_, fun _ h => h, fun _ _ h => h⟩
    intro other _
    rw [Scopes.bindFunction, get_modify]
    split <;> rfl
  refine ⟨bound.trans later, ?_⟩
  constructor
  · simp [Scopes.bindFunction, modify, paired₁.size]
  · intro other
    rw [Scopes.bindFunction, Scopes.bindFunction, get_modify, get_modify, paired₁.size]
    split <;> exact paired₁.outer other
  · intro other
    rw [Scopes.bindFunction, Scopes.bindFunction, get_modify, get_modify, paired₁.size]
    split <;> exact paired₁.bindings other
  · intro other word
    have kept := paired₁.functions_later later other word
    have new := alike.later (bound.trans later) paired.exist
    rw [Scopes.bindFunction] at kept new ⊢
    rw [Scopes.bindFunction, get_modify, get_modify, paired₁.size]
    split
    · rename_i same
      obtain ⟨rfl, -⟩ := same
      simp only [Entries.lookup_append, Entries.lookup_cons, List.lookup_nil]
      generalize ((scopes.bind _ name _ true).get _).functions.lookup word = old? at kept ⊢
      generalize ((scopes'.bind _ name _ true).get _).functions.lookup word = old'? at kept ⊢
      cases kept with
      | some alike => exact .some alike
      | none =>
        split
        · exact .some new
        · exact .none
    · exact kept
  · intro other inside
    have bound := paired₁.exist other inside
    simpa [Scopes.bindFunction, modify] using bound
  · intro other inside
    have kept := paired₁.free other inside
    unfold Scopes.binding? at kept ⊢
    rw [Scopes.bindFunction, get_modify]
    split <;> exact kept

/-- A scope is made in both runs, inside the fence or not. -/
theorem Paired.add (paired : scopes.Paired x z strict F scopes') (outer : List ScopeId)
    (fenced : Prop) :
    scopes.Later F (F.extend fenced scopes.cells.size) (scopes.add outer).2 ∧
      (scopes.add outer).2.Paired x z strict (F.extend fenced scopes.cells.size)
        (scopes'.add outer).2 := by
  have later : scopes.Later F (F.extend fenced scopes.cells.size) (scopes.add outer).2 := by
    constructor
    · simp [Scopes.add]
    · intro id bound
      rw [get_add, if_neg (show ¬ id = (scopes.add outer).1 from Nat.ne_of_lt bound)]
    · intro id inside
      exact .inl inside
    · rintro id bound (inside | ⟨-, rfl⟩)
      · exact inside
      · exact absurd bound (Nat.lt_irrefl _)
  have size' : (scopes'.add outer).1 = (scopes.add outer).1 := paired.size
  refine ⟨later, ?_⟩
  constructor
  · simp [Scopes.add, paired.size]
  · intro id
    rw [get_add, get_add, size']
    split
    · rfl
    · exact paired.outer id
  · intro id
    rw [get_add, get_add, size']
    split
    · rfl
    · exact paired.bindings id
  · intro id name
    have kept := paired.functions_later later id name
    rw [get_add, get_add, size']
    split
    · exact .none
    · exact kept
  · rintro id (inside | ⟨-, rfl⟩)
    · exact Nat.lt_of_lt_of_le (paired.exist id inside) later.size
    · simp [Scopes.add]
  · intro id inside
    unfold Scopes.binding?
    rw [get_add]
    split
    · exact ⟨rfl, rfl⟩
    · rename_i old
      rcases inside with inside | ⟨-, new⟩
      · exact paired.free id inside
      · exact absurd new old

/-- A new scope is inside the fence if the scopes around it are. -/
theorem inside_add {outer : List ScopeId} (inside : ∀ id ∈ outer, F id) {fenced : Prop}
    (h : fenced) :
    (scopes.add outer).2.Inside (F.extend fenced scopes.cells.size) scopes.cells.size := by
  intro id hid
  unfold Scopes.chain at hid
  rw [get_add, if_pos (show scopes.cells.size = (scopes.add outer).1 from rfl)] at hid
  rcases List.mem_cons.mp hid with rfl | hid
  · exact .inr ⟨h, rfl⟩
  · exact .inl (inside id hid)

end Scopes

theorem Machine.Paired.exist {m m' : Machine} (paired : m.Paired x z strict F m') :
    ∀ id, F id → id < m.scopes.cells.size := by
  obtain ⟨scopes', -, both⟩ := paired
  exact both.exist

end ScopeScript
