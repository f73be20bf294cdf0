import ScopeScript.Proofs.Scope.Territory
set_option autoImplicit false

/-!
# Scope: scopes only grow

Whatever is changed, scopes keep the names that they bind and the scopes around them, names stay the
constants or variables that they are, and constants keep their values.  All this is a preorder on
scopes that every single change respects.

The scope right around a scope is its parent.  Scopes are linked if the scopes around each of them
are its parent and those around its parent, so that the parents of a scope come to an end.  New
scopes are made inside ones that are there, so scopes stay linked as long as all scopes that are
mentioned exist.
-/

namespace ScopeScript.Scopes

/-! ## Growth -/

/-- The scope binds the name. -/
def Binds (scopes : Scopes) (id : ScopeId) (name : Name) : Prop :=
  (scopes.binding? id name).isSome = true

/-- The scope binds the name, as a constant. -/
def IsConst (scopes : Scopes) (id : ScopeId) (name : Name) : Prop :=
  ∃ binding, scopes.binding? id name = some binding ∧ binding.isConst = true

/-- What scopes keep of earlier ones. -/
structure Grows (scopes later : Scopes) : Prop where
  size : scopes.cells.size ≤ later.cells.size
  outer : ∀ id, id < scopes.cells.size → (later.get id).outer = (scopes.get id).outer
  binds : ∀ id name, scopes.Binds id name → later.Binds id name
  const : ∀ id name, scopes.Binds id name → (later.IsConst id name ↔ scopes.IsConst id name)
  value : ∀ id name, scopes.IsConst id name → later.binding? id name = scopes.binding? id name
  code : ∀ id name code, (scopes.get id).functions.lookup name = some code →
    (later.get id).functions.lookup name = some code

variable {scopes later : Scopes}

theorem IsConst.binds {id : ScopeId} {name : Name} (h : scopes.IsConst id name) :
    scopes.Binds id name := by
  obtain ⟨binding, found, -⟩ := h
  rw [Binds, found]
  rfl

theorem Grows.refl (scopes : Scopes) : scopes.Grows scopes :=
  ⟨Nat.le_refl _, fun _ _ => rfl, fun _ _ h => h, fun _ _ _ => Iff.rfl, fun _ _ _ => rfl,
    fun _ _ _ h => h⟩

theorem Grows.trans {scopes₁ scopes₂ : Scopes} (h : scopes.Grows scopes₁)
    (h' : scopes₁.Grows scopes₂) : scopes.Grows scopes₂ := by
  constructor
  · exact Nat.le_trans h.size h'.size
  · intro id old
    rw [h'.outer id (Nat.lt_of_lt_of_le old h.size), h.outer id old]
  · intro id name binds
    exact h'.binds id name (h.binds id name binds)
  · intro id name binds
    rw [h'.const id name (h.binds id name binds), h.const id name binds]
  · intro id name const
    rw [h'.value id name ((h.const id name const.binds).mpr const), h.value id name const]
  · intro id name code found
    exact h'.code id name code (h.code id name code found)

/-! ## Single changes -/

/-- Scopes that have the same bindings but for one, which is a variable before and after, or was not
there before, grow if they keep everything else. -/
theorem grows_of_bindings (size : scopes.cells.size ≤ later.cells.size)
    (outer : ∀ id, id < scopes.cells.size → (later.get id).outer = (scopes.get id).outer)
    (bindings : ∀ id name binding, scopes.binding? id name = some binding →
      ∃ binding', later.binding? id name = some binding' ∧ binding'.isConst = binding.isConst ∧
        (binding.isConst = true → binding' = binding))
    (code : ∀ id name code, (scopes.get id).functions.lookup name = some code →
      (later.get id).functions.lookup name = some code) : scopes.Grows later := by
  have bound : ∀ {id name}, scopes.Binds id name → ∃ binding binding',
      scopes.binding? id name = some binding ∧ later.binding? id name = some binding' ∧
        binding'.isConst = binding.isConst ∧ (binding.isConst = true → binding' = binding) := by
    intro id name binds
    obtain ⟨binding, found⟩ := Option.isSome_iff_exists.mp binds
    obtain ⟨binding', found', rest⟩ := bindings id name binding found
    exact ⟨binding, binding', found, found', rest⟩
  refine ⟨size, outer, ?_, ?_, ?_, code⟩
  · intro id name binds
    obtain ⟨_, _, -, found', -⟩ := bound binds
    rw [Binds, found']
    rfl
  · intro id name binds
    obtain ⟨_, _, found, found', same, -⟩ := bound binds
    simp [IsConst, found, found', same]
  · intro id name const
    obtain ⟨binding, binding', found, found', -, keeps⟩ := bound const.binds
    obtain ⟨_, again, isConst⟩ := const
    rw [found] at again
    cases again
    rw [found', keeps isConst, found]

theorem grows_bind {id : ScopeId} {name : Name} (value : Value) (isConst : Bool) :
    scopes.Grows (scopes.bind id name value isConst) := by
  have get : ∀ other, ∃ more, (scopes.bind id name value isConst).get other =
      { scopes.get other with bindings := (scopes.get other).bindings ++ more } := by
    intro other
    rw [bind, get_modify]
    split
    · exact ⟨_, rfl⟩
    · exact ⟨[], by rw [List.append_nil]⟩
  refine grows_of_bindings (by simp) ?_ ?_ ?_
  · intro other _
    obtain ⟨_, h⟩ := get other
    rw [h]
  · intro other key binding found
    obtain ⟨_, h⟩ := get other
    rw [binding?] at found
    refine ⟨binding, ?_, rfl, fun _ => rfl⟩
    rw [binding?, h, Entries.lookup_append, found]
    rfl
  · intro other key code found
    obtain ⟨_, h⟩ := get other
    rwa [h]

/-- More functions may be declared in a scope. -/
theorem grows_functions (scopes : Scopes) (id : ScopeId) (more : Entries Name Code) :
    scopes.Grows (scopes.modify id fun scope =>
      { scope with functions := scope.functions ++ more }) := by
  have get : ∀ other, ∃ more', (scopes.modify id fun scope =>
      { scope with functions := scope.functions ++ more }).get other =
      { scopes.get other with functions := (scopes.get other).functions ++ more' } := by
    intro other
    rw [get_modify]
    split
    · exact ⟨more, rfl⟩
    · exact ⟨[], by rw [List.append_nil]⟩
  refine grows_of_bindings (by simp) ?_ ?_ ?_
  · intro other _
    obtain ⟨_, h⟩ := get other
    rw [h]
  · intro other name binding found
    obtain ⟨_, h⟩ := get other
    exact ⟨binding, by rw [binding?, h]; exact found, rfl, fun _ => rfl⟩
  · intro other name code found
    obtain ⟨_, h⟩ := get other
    rw [h, Entries.lookup_append, found]
    rfl

/-- The name of a variable is looked up as the assignment does, so no constant is changed. -/
theorem grows_store {id : ScopeId} {name : Name} (value : Value)
    (assignable : scopes.assignProblem? id name = none) :
    scopes.Grows (scopes.store id name value) := by
  unfold store
  unfold assignProblem? at assignable
  cases resolved : scopes.resolve? id name with
  | none => exact .refl scopes
  | some target =>
    rw [resolved] at assignable
    dsimp only [Option.bind] at assignable ⊢
    refine grows_of_bindings (by simp) ?_ ?_ ?_
    · intro other _
      rw [get_modify]
      split <;> rfl
    · intro other key binding found
      rw [binding?, get_modify]
      split
      · rename_i same
        rw [Entries.lookup_change]
        rw [binding?] at found
        split
        · rename_i sameKey
          rw [found]
          -- The binding that is changed is the one that the assignment asked about.
          have asked : scopes.binding? target name = some binding := by
            rw [binding?, ← same.1, ← sameKey, found]
          rw [asked] at assignable
          dsimp only at assignable
          split at assignable
          · cases assignable
          · rename_i noConst
            exact ⟨_, rfl, rfl, fun const => absurd const noConst⟩
        · exact ⟨binding, found, rfl, fun _ => rfl⟩
      · exact ⟨binding, found, rfl, fun _ => rfl⟩
    · intro other key code found
      rw [get_modify]
      split <;> exact found

/-- A scope that does not exist binds nothing, and there is none around it. -/
theorem get_of_size_le {id : ScopeId} (h : scopes.cells.size ≤ id) : scopes.get id = {} := by
  rw [get, Array.getD_eq_getD_getElem?, Array.getElem?_eq_none h]
  rfl

/-- A new scope takes the place of none. -/
theorem grows_add (outer : List ScopeId) : scopes.Grows (scopes.add outer).2 := by
  -- What binds or declares something exists, so it is not the new scope.
  have old : ∀ {id : ScopeId}, scopes.get id ≠ {} →
      (scopes.add outer).2.get id = scopes.get id := by
    rintro id there
    refine get_add_old ?_
    rintro rfl
    exact there (get_of_size_le (Nat.le_refl _))
  refine grows_of_bindings (by simp) ?_ ?_ ?_
  · intro id bound
    rw [get_add_old (Nat.ne_of_lt bound)]
  · intro id name binding found
    refine ⟨binding, ?_, rfl, fun _ => rfl⟩
    rw [binding?] at found ⊢
    rwa [old fun empty => by rw [empty] at found; cases found]
  · intro id name code found
    rwa [old fun empty => by rw [empty] at found; cases found]

/-- Every change lets scopes grow, in any territory. -/
theorem Change.grows {T : Territory} (change : Change T scopes later) : scopes.Grows later := by
  cases change with
  | bind isConst isOpen here holds free => exact grows_bind _ isConst
  | bindFunction isOpen here gives free => exact (grows_bind _ true).trans (grows_functions _ _ _)
  | store here holds assignable => exact grows_store _ assignable
  | add here => exact grows_add _

theorem Changes.grows {T : Territory} (changes : Changes T scopes later) : scopes.Grows later := by
  induction changes with
  | refl => exact .refl scopes
  | tail _ change ih => exact ih.trans change.grows

/-! ## Parents -/

/-- The scope right around a scope. -/
def parent? (scopes : Scopes) (id : ScopeId) : Option ScopeId := (scopes.get id).outer.head?

/-- The scopes around a scope are its parent and those around its parent. -/
def Linked (scopes : Scopes) : Prop :=
  ∀ id parent, scopes.parent? id = some parent → (scopes.get id).outer = scopes.chain parent

/-- The parents of a scope exist and come to an end. -/
inductive Rooted (scopes : Scopes) : ScopeId → Prop
  | root {id : ScopeId} (h : scopes.parent? id = none) : Rooted scopes id
  | inner {id parent : ScopeId} (h : scopes.parent? id = some parent)
    (exist : parent < scopes.cells.size) (rooted : Rooted scopes parent) : Rooted scopes id

/-- The scopes that exist, and those that will be made. -/
def existing (scopes : Scopes) : Territory where
  given id := id < scopes.cells.size
  since := scopes.cells.size
  isOpen _ := True

/-- Some scopes later, all scopes of the territory exist. -/
theorem exist_of_holds (size : scopes.cells.size ≤ later.cells.size) {id : ScopeId}
    (here : scopes.existing.Holds later id) : id < later.cells.size :=
  here.elim (fun old => Nat.lt_of_lt_of_le old size) And.right

theorem holds_of_exist {id : ScopeId} (here : id < later.cells.size) :
    scopes.existing.Holds later id :=
  (Nat.lt_or_ge id scopes.cells.size).imp_right fun new => ⟨new, here⟩

theorem mem_outer_of_parent? {id parent : ScopeId} (h : scopes.parent? id = some parent) :
    parent ∈ (scopes.get id).outer := List.mem_of_head? h

/-- The scopes around the parent are fewer by one. -/
theorem Linked.rooted (linked : scopes.Linked)
    (exist : ∀ id, id < scopes.cells.size → ∀ other ∈ (scopes.get id).outer,
      other < scopes.cells.size) {id : ScopeId} (here : id < scopes.cells.size) :
    scopes.Rooted id := by
  generalize hcount : (scopes.get id).outer.length = count
  induction count generalizing id with
  | zero =>
    refine .root ?_
    rw [parent?, List.length_eq_zero_iff.mp hcount]
    rfl
  | succ count ih =>
    cases h : scopes.parent? id with
    | none => exact .root h
    | some parent =>
      have there := exist id here parent (mem_outer_of_parent? h)
      refine .inner h there (ih there ?_)
      rw [linked id parent h, chain, List.length_cons] at hcount
      exact Nat.succ.inj hcount

/-- Where no scope is made, the scopes around the others stay the same. -/
theorem Grows.linked (grows : scopes.Grows later) (size : later.cells.size = scopes.cells.size)
    (linked : scopes.Linked) : later.Linked := by
  have outer : ∀ id, (later.get id).outer = (scopes.get id).outer := by
    intro id
    rcases Nat.lt_or_ge id scopes.cells.size with old | new
    · exact grows.outer id old
    · rw [get_of_size_le new, get_of_size_le (size ▸ new)]
  intro id parent h
  rw [parent?, outer] at h
  rw [chain, outer, outer]
  exact linked id parent h

/-- A scope that is made inside one that exists has that one as its parent. -/
theorem linked_add (linked : scopes.Linked)
    (exist : ∀ id, id < scopes.cells.size → ∀ other ∈ (scopes.get id).outer,
      other < scopes.cells.size) {id : ScopeId} (here : id < scopes.cells.size) :
    (scopes.add (scopes.chain id)).2.Linked := by
  have old : ∀ {other : ScopeId}, other < scopes.cells.size →
      (scopes.add (scopes.chain id)).2.get other = scopes.get other := fun bound =>
    get_add_old (Nat.ne_of_lt bound)
  have new := get_add_new scopes (scopes.chain id)
  have size := size_add scopes (scopes.chain id)
  generalize (scopes.add (scopes.chain id)).2 = later at old new size
  intro other parent h
  rcases Nat.lt_trichotomy other scopes.cells.size with bound | rfl | beyond
  · rw [parent?, old bound] at h
    rw [chain, old bound, old (exist other bound parent (mem_outer_of_parent? h))]
    exact linked other parent h
  · rw [parent?, new] at h
    cases h
    rw [chain, new, old here]
    rfl
  · rw [parent?, get_of_size_le (size ▸ beyond)] at h
    cases h

/-- From complete scopes on, scopes stay linked. -/
theorem Change.linked {start : Scopes} (change : Change start.existing scopes later)
    (settled : start.existing.Settled scopes) (linked : scopes.Linked) : later.Linked := by
  have grows := change.grows
  cases change with
  | bind isConst isOpen here holds free => exact grows.linked (size_bind _ _ _ _ _) linked
  | bindFunction isOpen here gives free => exact grows.linked (size_bindFunction _ _ _ _) linked
  | store here holds assignable => exact grows.linked (size_store _ _ _ _) linked
  | add here =>
    refine linked_add linked ?_ (exist_of_holds settled.since here)
    intro id bound other hother
    exact exist_of_holds settled.since (settled.outer id (holds_of_exist bound) other hother)

theorem Changes.linked {start : Scopes} (changes : Changes start.existing scopes later)
    (settled : start.existing.Settled scopes) (linked : scopes.Linked) : later.Linked := by
  induction changes with
  | refl => exact linked
  | tail before change ih => exact change.linked (Changes.settled before settled) ih

end ScopeScript.Scopes
