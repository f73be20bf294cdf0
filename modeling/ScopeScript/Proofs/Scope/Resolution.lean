import ScopeScript.Proofs.Eval.Outcome
import ScopeScript.Proofs.Scope.Growth
set_option autoImplicit false

/-!
# Scope: what a name means

Reading, assigning and declaring are three walks over scopes that many others share.  They agree,
because a name means the same to all of them: what the nearest scope that binds it binds it to.

Whatever is done to a name, one binding of one scope is set.  Who looks for another name, or meets
that scope not at all or only behind the one it looks for, sees nothing of it.
-/

namespace ScopeScript

namespace Scopes

variable {scopes later : Scopes} {id other target : ScopeId} {name word : Name}
  {passed : List ScopeId} {binding : Binding}

/-! ## The nearest scope -/

/-- From a scope outwards, `target` is the first to bind the name: those that are passed before it
do not. -/
structure Meets (scopes : Scopes) (id : ScopeId) (name : Name) (passed : List ScopeId)
    (target : ScopeId) : Prop where
  way : ∃ rest, scopes.chain id = passed ++ target :: rest
  free : ∀ other ∈ passed, ¬ scopes.Binds other name
  binds : scopes.Binds target name

/-- The nearest scope, from a scope outwards, that binds the name. -/
def Nearest (scopes : Scopes) (id : ScopeId) (name : Name) (target : ScopeId) : Prop :=
  ∃ passed, scopes.Meets id name passed target

theorem resolve?_eq_some_iff :
    scopes.resolve? id name = some target ↔ scopes.Nearest id name target := by
  rw [resolve?, List.find?_eq_some_iff_append]
  constructor
  · rintro ⟨binds, passed, rest, way, free⟩
    refine ⟨passed, ⟨rest, way⟩, ?_, binds⟩
    intro other hother
    simpa [Binds] using free other hother
  · rintro ⟨passed, ⟨rest, way⟩, free, binds⟩
    refine ⟨binds, passed, rest, way, ?_⟩
    intro other hother
    simpa [Binds] using free other hother

theorem resolve?_eq_none_iff :
    scopes.resolve? id name = none ↔ ∀ target, ¬ scopes.Nearest id name target := by
  rw [Option.eq_none_iff_forall_ne_some]
  exact forall_congr' fun target => not_congr resolve?_eq_some_iff

theorem Nearest.unique {target' : ScopeId} (h : scopes.Nearest id name target)
    (h' : scopes.Nearest id name target') : target = target' := by
  have found := resolve?_eq_some_iff.mpr h
  rw [resolve?_eq_some_iff.mpr h'] at found
  exact (Option.some.inj found).symm

theorem Nearest.exists_binding (h : scopes.Nearest id name target) :
    ∃ binding, scopes.binding? target name = some binding := by
  obtain ⟨_, meets⟩ := h
  exact Option.isSome_iff_exists.mp meets.binds

/-- A scope that binds the name itself is the nearest. -/
theorem meets_here (binds : scopes.Binds id name) : scopes.Meets id name [] id :=
  ⟨⟨(scopes.get id).outer, rfl⟩, by simp, binds⟩

/-! ### Going out from parent to parent -/

/-- Whoever looks for the name in a scope, and where it is not bound goes on in the parent, finds it
in `target`. -/
inductive FoundIn (scopes : Scopes) (name : Name) (target : ScopeId) : ScopeId → Prop
  | here (binds : scopes.Binds target name) : FoundIn scopes name target target
  | outward {id parent : ScopeId} (free : ¬ scopes.Binds id name)
    (up : scopes.parent? id = some parent) (found : FoundIn scopes name target parent) :
    FoundIn scopes name target id

/-- What is met before the scope of the name is met from parent to parent. -/
theorem Meets.foundIn (linked : scopes.Linked) (meets : scopes.Meets id name passed target) :
    scopes.FoundIn name target id := by
  induction passed generalizing id with
  | nil =>
    obtain ⟨rest, way⟩ := meets.way
    cases way
    exact .here meets.binds
  | cons first passed ih =>
    obtain ⟨rest, way⟩ := meets.way
    obtain ⟨rfl, outer⟩ := List.cons.inj way
    have free := meets.free _ (List.mem_cons_self ..)
    cases up : scopes.parent? id with
    | none =>
      rw [parent?, List.head?_eq_none_iff] at up
      simp [up] at outer
    | some parent =>
      refine .outward free up (ih ⟨⟨rest, ?_⟩, ?_, meets.binds⟩)
      · rw [← linked _ parent up]
        exact outer
      · intro other hother
        exact meets.free other (List.mem_cons_of_mem _ hother)

/-- The nearest scope that binds a name is the one found by looking in a scope and then in its
parent, for as long as there is one. -/
theorem nearest_iff_foundIn (linked : scopes.Linked) :
    scopes.Nearest id name target ↔ scopes.FoundIn name target id := by
  constructor
  · rintro ⟨_, meets⟩
    exact meets.foundIn linked
  · intro found
    induction found with
    | here binds => exact ⟨[], meets_here binds⟩
    | @outward id parent free up _ ih =>
      obtain ⟨passed, ⟨rest, way⟩, frees, binds⟩ := ih
      refine ⟨id :: passed, ⟨rest, ?_⟩, ?_, binds⟩
      · rw [chain, linked id parent up, way]
        rfl
      · intro other hother
        rcases List.mem_cons.mp hother with rfl | hother
        · exact free
        · exact frees other hother

/-! ## Reading -/

theorem lookup_of_nearest (h : scopes.Nearest id name target)
    (found : scopes.binding? target name = some binding) :
    scopes.lookup id name = .ok binding.value := by
  rw [lookup, resolve?_eq_some_iff.mpr h, Option.bind_some, found]

theorem lookup_of_unbound (h : ∀ target, ¬ scopes.Nearest id name target) :
    scopes.lookup id name = .error (.unbound name) := by
  rw [lookup, resolve?_eq_none_iff.mpr h]
  rfl

/-- From the scope, the name means in other scopes what it meant before: it is found in the same
scope, with the same value, or not at all. -/
structure ReadsAs (scopes : Scopes) (id : ScopeId) (name : Name) (later : Scopes) : Prop where
  nearest : ∀ target, later.Nearest id name target ↔ scopes.Nearest id name target
  value : later.lookup id name = scopes.lookup id name

theorem ReadsAs.of_nearest
    (nearest : ∀ target, later.Nearest id name target ↔ scopes.Nearest id name target)
    (same : ∀ target, scopes.Nearest id name target →
      later.binding? target name = scopes.binding? target name) :
    scopes.ReadsAs id name later := by
  refine ⟨nearest, ?_⟩
  by_cases some_scope : ∃ target, scopes.Nearest id name target
  · obtain ⟨target, h⟩ := some_scope
    obtain ⟨binding, found⟩ := h.exists_binding
    rw [lookup_of_nearest h found,
      lookup_of_nearest ((nearest target).mpr h) ((same target h).trans found)]
  · have unbound := not_exists.mp some_scope
    rw [lookup_of_unbound unbound,
      lookup_of_unbound fun target h => unbound target ((nearest target).mp h)]

/-! ## Setting a binding -/

/-- The scopes around each scope stay, and so does every binding but the one of the name in the
scope, which is set. -/
structure Rebinds (scopes : Scopes) (id : ScopeId) (name : Name) (binding : Binding)
    (later : Scopes) : Prop where
  outer : ∀ other, (later.get other).outer = (scopes.get other).outer
  binding? : ∀ other word, later.binding? other word =
    if other = id ∧ word.key = name.key then some binding else scopes.binding? other word

theorem rebinds_bind (here : id < scopes.cells.size) (free : ¬ scopes.Binds id name)
    (value : Value) (isConst : Bool) :
    scopes.Rebinds id name ⟨name, value, isConst⟩ (scopes.bind id name value isConst) := by
  have missing : scopes.binding? id name = none := Option.not_isSome_iff_eq_none.mp free
  constructor
  · intro other
    rw [bind, get_modify]
    split <;> rfl
  · intro other word
    rw [binding?_bind]
    by_cases same : other = id ∧ word.key = name.key
    · have unbound : scopes.binding? other word = none := by
        rw [Scopes.binding?] at missing ⊢
        rw [same.1, same.2, missing]
      rw [unbound, if_pos ⟨⟨same.1, here⟩, same.2⟩, if_pos same, Option.none_or]
    · have apart : ¬ ((other = id ∧ id < scopes.cells.size) ∧ word.key = name.key) :=
        fun h => same ⟨h.1.1, h.2⟩
      rw [if_neg apart, if_neg same, Option.or_none]

/-- The code of a function is kept beside the bindings. -/
theorem rebinds_bindFunction (here : id < scopes.cells.size) (free : ¬ scopes.Binds id name)
    (code : Code) :
    scopes.Rebinds id name ⟨name, .function id name, true⟩ (scopes.bindFunction id name code) := by
  have rebinds := rebinds_bind here free (.function id name) true
  have get : ∀ other, ∃ functions, (scopes.bindFunction id name code).get other =
      { (scopes.bind id name (.function id name) true).get other with functions := functions } := by
    intro other
    rw [bindFunction, get_modify]
    split
    · exact ⟨_, rfl⟩
    · exact ⟨_, rfl⟩
  constructor
  · intro other
    obtain ⟨_, h⟩ := get other
    rw [h]
    exact rebinds.outer other
  · intro other word
    obtain ⟨_, h⟩ := get other
    rw [Scopes.binding?, h]
    exact rebinds.binding? other word

/-- A value is stored in the scope that reading resolves the name to. -/
theorem rebinds_store (h : scopes.Nearest id name target)
    (found : scopes.binding? target name = some binding) (value : Value) :
    scopes.Rebinds target name { binding with value := value } (scopes.store id name value) := by
  have bound : target < scopes.cells.size := by
    refine Nat.lt_of_not_le fun missing => ?_
    rw [Scopes.binding?, get_of_size_le missing] at found
    cases found
  rw [store, resolve?_eq_some_iff.mpr h]
  constructor
  · intro other
    rw [get_modify]
    split <;> rfl
  · intro other word
    rw [Scopes.binding?, Scopes.binding?, get_modify]
    by_cases same : other = target
    · subst same
      rw [Scopes.binding?] at found
      simp only [bound, true_and, if_true, Entries.lookup_change]
      by_cases key : word.key = name.key
      · simp [key, found]
      · simp [key]
    · simp [same]

namespace Rebinds

theorem chain (rebinds : scopes.Rebinds id name binding later) (other : ScopeId) :
    later.chain other = scopes.chain other := by
  rw [Scopes.chain, Scopes.chain, rebinds.outer]

theorem binding?_self (rebinds : scopes.Rebinds id name binding later) :
    later.binding? id name = some binding := by
  rw [rebinds.binding?, if_pos ⟨rfl, rfl⟩]

theorem binds_self (rebinds : scopes.Rebinds id name binding later) : later.Binds id name := by
  rw [Binds, rebinds.binding?_self]
  rfl

theorem binding?_other (rebinds : scopes.Rebinds id name binding later)
    (h : ¬ (other = id ∧ word.key = name.key)) :
    later.binding? other word = scopes.binding? other word := by
  rw [rebinds.binding?, if_neg h]

theorem binds_other (rebinds : scopes.Rebinds id name binding later)
    (h : ¬ (other = id ∧ word.key = name.key)) :
    later.Binds other word ↔ scopes.Binds other word := by
  rw [Binds, Binds, rebinds.binding?_other h]

/-- A scope is met as before if it binds the name, and those that are passed do not, as before. -/
theorem meets_congr (rebinds : scopes.Rebinds id name binding later)
    (same : ∀ scope ∈ passed ++ [target], later.Binds scope word ↔ scopes.Binds scope word) :
    later.Meets other word passed target ↔ scopes.Meets other word passed target := by
  have last := same target (by simp)
  have before : ∀ scope ∈ passed, later.Binds scope word ↔ scopes.Binds scope word :=
    fun scope hscope => same scope (List.mem_append_left _ hscope)
  constructor
  · rintro ⟨way, free, binds⟩
    rw [rebinds.chain] at way
    exact ⟨way, fun scope hscope => mt (before scope hscope).mpr (free scope hscope),
      last.mp binds⟩
  · rintro ⟨way, free, binds⟩
    rw [← rebinds.chain] at way
    exact ⟨way, fun scope hscope => mt (before scope hscope).mp (free scope hscope),
      last.mpr binds⟩

/-- Other names mean what they meant. -/
theorem readsAs_word (rebinds : scopes.Rebinds id name binding later) (other : ScopeId)
    (ne : word.key ≠ name.key) : scopes.ReadsAs other word later := by
  refine .of_nearest (fun target => ?_) (fun target _ => ?_)
  · exact exists_congr fun passed =>
      rebinds.meets_congr fun scope _ => rebinds.binds_other fun same => ne same.2
  · exact rebinds.binding?_other fun same => ne same.2

/-- Where the scope is not met, names mean what they meant. -/
theorem readsAs_apart (rebinds : scopes.Rebinds id name binding later)
    (apart : id ∉ scopes.chain other) (word : Name) : scopes.ReadsAs other word later := by
  have ne : ∀ scope ∈ scopes.chain other, ¬ (scope = id ∧ word.key = name.key) := by
    rintro scope hscope ⟨rfl, -⟩
    exact apart hscope
  refine .of_nearest (fun target => exists_congr fun passed => ?_) ?_
  · -- What is met on the way lies on the chain, which is the same one before and after.
    by_cases way : ∃ rest, scopes.chain other = passed ++ target :: rest
    · obtain ⟨rest, way⟩ := way
      refine rebinds.meets_congr fun scope hscope => rebinds.binds_other (ne scope ?_)
      rw [way, List.append_cons]
      exact List.mem_append_left _ hscope
    · constructor
      · intro meets
        exact absurd (rebinds.chain other ▸ meets.way) way
      · intro meets
        exact absurd meets.way way
  · rintro target ⟨passed, ⟨rest, way⟩, -, -⟩
    refine rebinds.binding?_other (ne target ?_)
    rw [way]
    exact List.mem_append_right _ (List.mem_cons_self ..)

/-- Setting what was bound already does not change where names are found. -/
theorem nearest_of_bound (rebinds : scopes.Rebinds id name binding later)
    (bound : scopes.Binds id name) (other : ScopeId) (word : Name) (target : ScopeId) :
    later.Nearest other word target ↔ scopes.Nearest other word target := by
  refine exists_congr fun passed => rebinds.meets_congr fun scope _ => ?_
  by_cases same : scope = id ∧ word.key = name.key
  · obtain ⟨rfl, key⟩ := same
    rw [Binds, Binds, rebinds.binding?, if_pos ⟨rfl, key⟩, Scopes.binding?, key]
    exact iff_of_true rfl bound
  · exact rebinds.binds_other same

/-- Where a scope that is passed before the name is found is not the one whose binding is set, the
name means what it meant. -/
theorem readsAs_before (rebinds : scopes.Rebinds id name binding later)
    (free : ¬ scopes.Binds id name) (meets : scopes.Meets other word passed target)
    (before : id ∉ passed) (key : word.key = name.key) : scopes.ReadsAs other word later := by
  have ne : target ≠ id := by
    rintro rfl
    refine free ?_
    have binds := meets.binds
    rwa [Binds, Scopes.binding?, key] at binds
  have found : later.Nearest other word target := by
    refine ⟨passed, (rebinds.meets_congr fun scope hscope => ?_).mpr meets⟩
    refine rebinds.binds_other ?_
    rintro ⟨rfl, -⟩
    rcases List.mem_append.mp hscope with passing | last
    · exact before passing
    · exact ne (List.mem_singleton.mp last).symm
  refine .of_nearest (fun scope => ?_) (fun scope h => ?_)
  · constructor
    · intro h
      rw [h.unique found]
      exact ⟨passed, meets⟩
    · intro h
      rw [h.unique ⟨passed, meets⟩]
      exact found
  · rw [h.unique ⟨passed, meets⟩]
    exact rebinds.binding?_other fun same => ne same.1

/-- The name means what was set wherever no scope that is passed before binds it. -/
theorem lookup_self (rebinds : scopes.Rebinds id name binding later)
    (nearest : later.Nearest other name id) : later.lookup other name = .ok binding.value :=
  lookup_of_nearest nearest rebinds.binding?_self

end Rebinds

end Scopes

/-! ## Operations on names -/

namespace Eval

variable {m : Machine} {scope : ScopeId} {name : Name}

/-- What reading a name comes to: the value of the nearest binding, without which there is an error.
Nothing changes either way. -/
structure ReadsName (m : Machine) (scope : ScopeId) (name : Name) : Prop where
  found : ∀ target binding, m.scopes.Nearest scope name target →
    m.scopes.binding? target name = some binding →
    lookup scope name m = .ok binding.value m
  unbound : (lookup scope name).failure? m = some (.unbound name) ↔
    ∀ target, ¬ m.scopes.Nearest scope name target
  leaves : (lookup scope name).leaves m = m

/-- What giving a name another value comes to. -/
structure AssignsName (m : Machine) (scope : ScopeId) (name : Name) (value : Value) : Prop where
  unbound : (assign scope name value).failure? m = some (.unbound name) ↔
    ∀ target, ¬ m.scopes.Nearest scope name target
  constant : (assign scope name value).failure? m = some (.constant name) ↔
    ∃ target, m.scopes.Nearest scope name target ∧ m.scopes.IsConst target name
  /-- there are no other errors, and none changes anything -/
  failed : ∀ error later, assign scope name value m = .error error later →
    (error = .unbound name ∨ error = .constant name) ∧ later = m
  /-- the value is what the name means wherever it means the same binding, and only there -/
  stored : ∀ target later, m.scopes.Nearest scope name target →
    assign scope name value m = .ok () later →
      (∃ scopes, later = { m with scopes := scopes }) ∧
      (∀ other word target',
        later.scopes.Nearest other word target' ↔ m.scopes.Nearest other word target') ∧
      (∀ other, m.scopes.Nearest other name target → lookup other name later = .ok value later) ∧
      ∀ other word, ¬ (word.key = name.key ∧ m.scopes.Nearest other word target) →
        later.scopes.lookup other word = m.scopes.lookup other word

/-- What a declaration comes to. -/
structure DeclaresName (declaration : Eval Unit) (m : Machine) (scope : ScopeId) (name : Name)
    (value : Value) (isConst : Bool) : Prop where
  duplicate : declaration.failure? m = some (.duplicate name) ↔ m.scopes.Binds scope name
  /-- there is no other error, and it changes nothing -/
  failed : ∀ error later, declaration m = .error error later →
    error = .duplicate name ∧ later = m
  declared : ∀ later, declaration m = .ok () later →
    (∃ scopes, later = { m with scopes := scopes }) ∧
    lookup scope name later = .ok value later ∧
    (later.scopes.IsConst scope name ↔ isConst = true) ∧
    (∀ other word, word.key ≠ name.key → m.scopes.ReadsAs other word later.scopes) ∧
    (∀ other, scope ∉ m.scopes.chain other → m.scopes.ReadsAs other name later.scopes) ∧
    ∀ other passed target, m.scopes.Meets other name passed target → scope ∉ passed →
      m.scopes.ReadsAs other name later.scopes

theorem lookup_of_ok {value : Value} (h : m.scopes.lookup scope name = .ok value) :
    lookup scope name m = .ok value m := by
  rw [lookup_apply, h]

theorem readsName (m : Machine) (scope : ScopeId) (name : Name) : ReadsName m scope name := by
  by_cases some_scope : ∃ target, m.scopes.Nearest scope name target
  · obtain ⟨target, nearest⟩ := some_scope
    obtain ⟨binding, found⟩ := nearest.exists_binding
    have value := lookup_of_ok (Scopes.lookup_of_nearest nearest found)
    refine ⟨fun target' binding' nearest' found' => ?_, ?_, leaves_of_ok value⟩
    · exact lookup_of_ok (Scopes.lookup_of_nearest nearest' found')
    · rw [failure?, value]
      exact iff_of_false nofun fun none => none target nearest
  · have unbound := not_exists.mp some_scope
    have error : lookup scope name m = .error (.unbound name) m := by
      rw [lookup_apply, Scopes.lookup_of_unbound unbound]
    refine ⟨fun target _ nearest _ => absurd nearest (unbound target), ?_, leaves_of_error error⟩
    rw [failure?, error]
    exact iff_of_true rfl unbound

/-! ### Assigning -/

theorem assign_of_unbound (unbound : ∀ target, ¬ m.scopes.Nearest scope name target)
    (value : Value) : assign scope name value m = .error (.unbound name) m := by
  rw [assign, updateScopes_apply, Scopes.assignProblem?, Scopes.resolve?_eq_none_iff.mpr unbound]
  rfl

/-- The binding that reading finds is asked whether it may be changed. -/
theorem assign_of_nearest {target : ScopeId} {binding : Binding}
    (nearest : m.scopes.Nearest scope name target)
    (found : m.scopes.binding? target name = some binding) (value : Value) :
    assign scope name value m =
      if binding.isConst then .error (.constant name) m
      else .ok () { m with scopes := m.scopes.store scope name value } := by
  rw [assign, updateScopes_apply, Scopes.assignProblem?, Scopes.resolve?_eq_some_iff.mpr nearest,
    Option.bind_some, found]
  cases h : binding.isConst <;> simp [h]

theorem isConst_iff_of_nearest {target : ScopeId} {binding : Binding}
    (nearest : m.scopes.Nearest scope name target)
    (found : m.scopes.binding? target name = some binding) :
    (∃ target, m.scopes.Nearest scope name target ∧ m.scopes.IsConst target name) ↔
      binding.isConst = true := by
  constructor
  · rintro ⟨target', nearest', binding', found', isConst⟩
    rw [nearest'.unique nearest, found] at found'
    cases found'
    exact isConst
  · intro isConst
    exact ⟨target, nearest, binding, found, isConst⟩

/-- A variable that is given another value means the same binding as before, to everyone, and the
value is seen by those alone to whom it means that one. -/
theorem stored_of_nearest {target : ScopeId} {binding : Binding}
    (nearest : m.scopes.Nearest scope name target)
    (found : m.scopes.binding? target name = some binding) (value : Value) :
    let scopes := m.scopes.store scope name value
    (∀ other word target', scopes.Nearest other word target' ↔
      m.scopes.Nearest other word target') ∧
    (∀ other, m.scopes.Nearest other name target → scopes.lookup other name = .ok value) ∧
    ∀ other word, ¬ (word.key = name.key ∧ m.scopes.Nearest other word target) →
      scopes.lookup other word = m.scopes.lookup other word := by
  intro scopes
  have rebinds := Scopes.rebinds_store nearest found value
  have bound : m.scopes.Binds target name := by
    rw [Scopes.Binds, found]
    rfl
  have nearest_iff := rebinds.nearest_of_bound bound
  refine ⟨nearest_iff, fun other reads => ?_, fun other word apart => ?_⟩
  · exact rebinds.lookup_self ((nearest_iff other name target).mpr reads)
  · refine (Scopes.ReadsAs.of_nearest (nearest_iff other word) fun target' reads => ?_).value
    refine rebinds.binding?_other ?_
    rintro ⟨rfl, key⟩
    exact apart ⟨key, reads⟩

theorem assignsName (m : Machine) (scope : ScopeId) (name : Name) (value : Value) :
    AssignsName m scope name value := by
  by_cases some_scope : ∃ target, m.scopes.Nearest scope name target
  case neg =>
    have unbound := not_exists.mp some_scope
    have outcome := assign_of_unbound unbound value
    refine ⟨?_, ?_, fun error later failed => ?_, fun target _ nearest => ?_⟩
    · rw [failure?, outcome]
      exact iff_of_true rfl unbound
    · rw [failure?, outcome]
      exact iff_of_false nofun fun ⟨target, nearest, _⟩ => unbound target nearest
    · rw [outcome] at failed
      cases failed
      exact ⟨.inl rfl, rfl⟩
    · exact absurd nearest (unbound target)
  case pos =>
    obtain ⟨target, nearest⟩ := some_scope
    obtain ⟨binding, found⟩ := nearest.exists_binding
    have outcome := assign_of_nearest nearest found value
    have constant := isConst_iff_of_nearest nearest found
    cases isConst : binding.isConst with
    | true =>
      rw [isConst, if_pos rfl] at outcome
      refine ⟨?_, ?_, fun error later failed => ?_, fun target later _ ok => ?_⟩
      · rw [failure?, outcome]
        exact iff_of_false nofun fun unbound => unbound target nearest
      · rw [failure?, outcome]
        exact iff_of_true rfl (constant.mpr isConst)
      · rw [outcome] at failed
        cases failed
        exact ⟨.inr rfl, rfl⟩
      · rw [outcome] at ok
        cases ok
    | false =>
      rw [isConst, if_neg Bool.false_ne_true] at outcome
      refine ⟨?_, ?_, fun error later failed => ?_, fun target' later nearest' ok => ?_⟩
      · rw [failure?, outcome]
        exact iff_of_false nofun fun unbound => unbound target nearest
      · rw [failure?, outcome, constant, isConst]
        exact iff_of_false nofun nofun
      · rw [outcome] at failed
        cases failed
      · rw [outcome] at ok
        cases ok
        obtain rfl := nearest'.unique nearest
        obtain ⟨nearest_iff, seen, unseen⟩ := stored_of_nearest nearest found value
        exact ⟨⟨_, rfl⟩, nearest_iff, fun other reads => lookup_of_ok (seen other reads), unseen⟩

/-! ### Declaring -/

theorem declareProblem?_of_binds {scopes : Scopes} (bound : scopes.Binds scope name) :
    scopes.declareProblem? scope name = some (.duplicate name) := if_pos bound

theorem declareProblem?_of_free {scopes : Scopes} (free : ¬ scopes.Binds scope name) :
    scopes.declareProblem? scope name = none := if_neg free

/-- What declares a name declares it in the scope it is told to, unless the name is bound there. -/
theorem declaresName_of_rebinds {value : Value} {isConst : Bool} {change : Scopes → Scopes}
    (rebinds : ¬ m.scopes.Binds scope name →
      m.scopes.Rebinds scope name ⟨name, value, isConst⟩ (change m.scopes)) :
    DeclaresName (updateScopes (·.declareProblem? scope name) change) m scope name value
      isConst := by
  by_cases bound : m.scopes.Binds scope name
  · have outcome : updateScopes (·.declareProblem? scope name) change m =
        .error (.duplicate name) m := by
      rw [updateScopes_apply, declareProblem?_of_binds bound]
    refine ⟨?_, fun error later failed => ?_, fun later ok => ?_⟩
    · rw [failure?, outcome]
      exact iff_of_true rfl bound
    · rw [outcome] at failed
      cases failed
      exact ⟨rfl, rfl⟩
    · rw [outcome] at ok
      cases ok
  · have outcome : updateScopes (·.declareProblem? scope name) change m =
        .ok () { m with scopes := change m.scopes } := by
      rw [updateScopes_apply, declareProblem?_of_free bound]
    replace rebinds := rebinds bound
    refine ⟨?_, fun error later failed => ?_, fun later ok => ?_⟩
    · rw [failure?, outcome]
      exact iff_of_false nofun bound
    · rw [outcome] at failed
      cases failed
    · rw [outcome] at ok
      cases ok
      refine ⟨⟨_, rfl⟩, ?_, ?_, fun other word ne => rebinds.readsAs_word other ne,
        fun other apart => rebinds.readsAs_apart apart name,
        fun other passed target meets before => rebinds.readsAs_before bound meets before rfl⟩
      · exact lookup_of_ok (rebinds.lookup_self ⟨[], Scopes.meets_here rebinds.binds_self⟩)
      · simp [Scopes.IsConst, rebinds.binding?_self]

/-- Reading, assigning and declaring agree on what names mean, whichever way scopes share the scopes
around them.

A name is read where the nearest scope binds it, and assigned there.  The assignment fails if there
is no such scope or the name is a constant in it, and is seen by those alone who find the same name
in the same scope.  A declaration fails if the scope binds the name already, and is seen by those
alone who meet the scope before they find that name.  The nearest scope is the one found by looking
in one scope after the other, from parent to parent. -/
theorem operations_agree_on_scope (m : Machine) (scope : ScopeId) (name : Name) (value : Value)
    (isConst : Bool) (code : Code) (exist : scope < m.scopes.cells.size) :
    ReadsName m scope name ∧ AssignsName m scope name value ∧
      DeclaresName (declare scope name value isConst) m scope name value isConst ∧
      DeclaresName (declareFunction scope name code) m scope name (.function scope name) true ∧
      (m.scopes.Linked → ∀ other word target,
        m.scopes.Nearest other word target ↔ m.scopes.FoundIn word target other) :=
  ⟨readsName m scope name, assignsName m scope name value,
    declaresName_of_rebinds fun free => Scopes.rebinds_bind exist free value isConst,
    declaresName_of_rebinds fun free => Scopes.rebinds_bindFunction exist free code,
    fun linked _ _ _ => Scopes.nearest_iff_foundIn linked⟩

/-- A scope with a variable, and two scopes inside it.  The first of these shadows the variable with
a constant, which the scope inside it sees as well. -/
def branchingMachine : Machine where
  scopes := ⟨#[
    { bindings := [(.text "x", ⟨.text "x", .boolean true, false⟩)] },
    { outer := [0], bindings := [(.text "x", ⟨.text "x", .boolean false, true⟩)] },
    { outer := [1, 0] },
    { outer := [0] }]⟩

theorem linked_branchingMachine : branchingMachine.scopes.Linked := by
  intro id parent up
  match id with
  | 0 => cases up
  | 1 | 2 | 3 =>
    cases up
    rfl
  | id + 4 =>
    rw [Scopes.parent?, Scopes.get_of_size_le (Nat.le_add_left 4 id)] at up
    cases up

/-- Whoever assigns to the variable from the second of the inner scopes is seen in the outermost one
and not behind the constant. -/
theorem operations_agree_on_scope_branchingMachine :
    3 < branchingMachine.scopes.cells.size ∧
    branchingMachine.scopes.FoundIn (.text "x") 0 3 ∧
    ∃ later, assign 3 (.text "x") (.text "new") branchingMachine = .ok () later ∧
      lookup 0 (.text "x") later = .ok (.text "new") later ∧
      later.scopes.lookup 2 (.text "x") = .ok (.boolean false) := by
  have exist : 3 < branchingMachine.scopes.cells.size := by decide
  obtain ⟨-, assigns, -, -, walk⟩ :=
    operations_agree_on_scope branchingMachine 3 (.text "x") (.text "new") false .empty exist
  have outermost : branchingMachine.scopes.Nearest 0 (.text "x") 0 :=
    Scopes.resolve?_eq_some_iff.mp rfl
  have assigned : branchingMachine.scopes.Nearest 3 (.text "x") 0 :=
    Scopes.resolve?_eq_some_iff.mp rfl
  have shadowed : branchingMachine.scopes.Nearest 2 (.text "x") 1 :=
    Scopes.resolve?_eq_some_iff.mp rfl
  obtain ⟨-, -, seen, unseen⟩ := assigns.stored 0 _ assigned rfl
  refine ⟨exist, (walk linked_branchingMachine 3 (.text "x") 0).mp assigned, _, rfl,
    seen 0 outermost, unseen 2 (.text "x") ?_⟩
  rintro ⟨-, again⟩
  exact absurd (again.unique shadowed) (by decide)

end Eval

end ScopeScript
