import ScopeScript.Proofs.Eval.Activity
import ScopeScript.Proofs.Eval.Paired
set_option autoImplicit false

/-!
# Eval: two runs that agree

Two computations agree if they both succeed with the same result or fail with errors that are alike,
and leave states that differ in the code of functions only.  A script agrees with what becomes of it
when uses of a name that are out of scope are redirected: such a use fails in both runs, for it is
evaluated in a scope inside the fence, whatever scopes the callers have.

The proofs go by recursion on the tree for any caller that agrees with itself, and by induction on
how deep calls may be nested for the caller.
-/

namespace ScopeScript.Eval

variable {α β : Type} {x z : String} {strict : Prop} {F F₁ : Fence} {m m' : Machine}

/-! ## Computations that agree -/

/-- From paired states, the computations have the same result, or errors that are alike, and come to
paired states.  `Q` holds of the result, with the fence and the state of the first run by then. -/
def Agree (x z : String) (strict : Prop) (F : Fence) (y y' : Eval α) (m m' : Machine)
    (Q : Fence → α → Machine → Prop := fun _ _ _ => True) : Prop :=
  match y m, y' m' with
  | .ok a m₁, .ok a' m₁' =>
    a' = a ∧ ∃ F₁, m.scopes.Later F F₁ m₁.scopes ∧ m₁.Paired x z strict F₁ m₁' ∧ Q F₁ a m₁
  | .error error m₁, .error error' m₁' =>
    error.Alike x z error' ∧ ∃ F₁, m.scopes.Later F F₁ m₁.scopes ∧ m₁.Paired x z strict F₁ m₁'
  | _, _ => False

variable {Q : Fence → α → Machine → Prop} {R : Fence → β → Machine → Prop}

theorem agree_of_ok {y y' : Eval α} {a : α} {m₁ m₁' : Machine} (h : y m = .ok a m₁)
    (h' : y' m' = .ok a m₁') (later : m.scopes.Later F F₁ m₁.scopes)
    (paired : m₁.Paired x z strict F₁ m₁') (holds : Q F₁ a m₁) :
    Agree x z strict F y y' m m' Q := by
  unfold Agree
  rw [h, h']
  exact ⟨rfl, F₁, later, paired, holds⟩

theorem agree_of_error {y y' : Eval α} {error error' : Error} (h : y m = .error error m)
    (h' : y' m' = .error error' m') (alike : error.Alike x z error')
    (paired : m.Paired x z strict F m') : Agree x z strict F y y' m m' Q := by
  unfold Agree
  rw [h, h']
  exact ⟨alike, F, .refl F _, paired⟩

theorem agree_pure (paired : m.Paired x z strict F m') (a : α) :
    Agree x z strict F (pure a) (pure a) m m' :=
  agree_of_ok rfl rfl (.refl F _) paired trivial

theorem agree_throw (paired : m.Paired x z strict F m') (error : Error) :
    Agree x z strict F (throw error : Eval α) (throw error) m m' :=
  agree_of_error rfl rfl (.same error) paired

theorem agree_get {f f' : Machine → Eval α} (h : Agree x z strict F (f m) (f' m') m m') :
    Agree x z strict F (get >>= f) (get >>= f') m m' := h

/-- What agrees with something at a later moment agrees with it from now on. -/
theorem Agree.later {y y' y₁ y₁' : Eval α} {m₁ m₁' : Machine}
    (later : m.scopes.Later F F₁ m₁.scopes) (h : Agree x z strict F₁ y₁ y₁' m₁ m₁' Q)
    (hy : y m = y₁ m₁) (hy' : y' m' = y₁' m₁') : Agree x z strict F y y' m m' Q := by
  unfold Agree at h ⊢
  rw [hy, hy']
  revert h
  split
  · rintro ⟨same, F₂, later₂, rest⟩
    exact ⟨same, F₂, later.trans later₂, rest⟩
  · rintro ⟨alike, F₂, later₂, paired⟩
    exact ⟨alike, F₂, later.trans later₂, paired⟩
  · exact id

/-- The second run succeeds only where the first one does. -/
theorem Agree.ok {y y' : Eval α} {a : α} {m₁' : Machine} (h : Agree x z strict F y y' m m' Q)
    (hy' : y' m' = .ok a m₁') :
    ∃ F₁ m₁, y m = .ok a m₁ ∧ m.scopes.Later F F₁ m₁.scopes ∧ m₁.Paired x z strict F₁ m₁' ∧
      Q F₁ a m₁ := by
  unfold Agree at h
  rw [hy'] at h
  cases hy : y m with
  | ok a₁ m₁ =>
    rw [hy] at h
    obtain ⟨rfl, F₁, rest⟩ := h
    exact ⟨F₁, m₁, rfl, rest⟩
  | error error m₁ =>
    rw [hy] at h
    exact h.elim

/-- The second run fails only where the first one does. -/
theorem Agree.error {y y' : Eval α} {error' : Error} {m₁' : Machine}
    (h : Agree x z strict F y y' m m' Q) (hy' : y' m' = .error error' m₁') :
    ∃ error m₁, y m = .error error m₁ ∧ error.Alike x z error' ∧
      ∃ F₁, m.scopes.Later F F₁ m₁.scopes ∧ m₁.Paired x z strict F₁ m₁' := by
  unfold Agree at h
  rw [hy'] at h
  cases hy : y m with
  | ok a m₁ =>
    rw [hy] at h
    exact h.elim
  | error error m₁ =>
    rw [hy] at h
    exact ⟨error, m₁, rfl, h⟩

theorem Agree.bindWith {y y' : Eval α} {f f' : α → Eval β} (hy : Agree x z strict F y y' m m' Q)
    (hf : ∀ a F₁ m₁ m₁', m.scopes.Later F F₁ m₁.scopes → m₁.Paired x z strict F₁ m₁' →
      Q F₁ a m₁ → Agree x z strict F₁ (f a) (f' a) m₁ m₁' R) :
    Agree x z strict F (y >>= f) (y' >>= f') m m' R := by
  cases hy' : y' m' with
  | ok a m₁' =>
    obtain ⟨F₁, m₁, h, later, paired, holds⟩ := hy.ok hy'
    exact (hf a F₁ m₁ m₁' later paired holds).later later (bind_of_ok h f) (bind_of_ok hy' f')
  | error error' m₁' =>
    obtain ⟨error, m₁, h, rest⟩ := hy.error hy'
    unfold Agree
    rw [bind_of_error h, bind_of_error hy']
    exact rest

theorem Agree.bind {y y' : Eval α} {f f' : α → Eval β} (hy : Agree x z strict F y y' m m')
    (hf : ∀ a F₁ m₁ m₁', m.scopes.Later F F₁ m₁.scopes → m₁.Paired x z strict F₁ m₁' →
      Agree x z strict F₁ (f a) (f' a) m₁ m₁' R) :
    Agree x z strict F (y >>= f) (y' >>= f') m m' R :=
  hy.bindWith fun a F₁ m₁ m₁' later paired _ => hf a F₁ m₁ m₁' later paired

/-- Where the first part fails without a trace, so does the whole. -/
theorem agree_bind_of_error {y y' : Eval α} {f f' : α → Eval β} {error error' : Error}
    (h : y m = .error error m) (h' : y' m' = .error error' m') (alike : error.Alike x z error')
    (paired : m.Paired x z strict F m') : Agree x z strict F (y >>= f) (y' >>= f') m m' R :=
  agree_of_error (bind_of_error h f) (bind_of_error h' f') alike paired

/-! ## Single operations -/

theorem agree_ofExcept (paired : m.Paired x z strict F m') (result : Except Error α) :
    Agree x z strict F (ofExcept result) (ofExcept result) m m' := by
  cases result with
  | ok a => exact agree_pure paired a
  | error error => exact agree_throw paired error

theorem agree_demand (paired : m.Paired x z strict F m') (description : String) (value : Value) :
    Agree x z strict F (demand description value) (demand description value) m m' := by
  unfold demand
  split
  · exact agree_throw paired _
  · exact agree_pure paired value

theorem agree_lookup (paired : m.Paired x z strict F m') (scope : ScopeId) (name : Name) :
    Agree x z strict F (lookup scope name) (lookup scope name) m m' := by
  obtain ⟨scopes', rfl, both⟩ := id paired
  unfold lookup
  refine agree_get ?_
  rw [both.lookup]
  split
  · exact agree_pure paired _
  · exact agree_throw paired _

/-- Inside the fence, neither name has a value. -/
theorem lookup_inside {scope : ScopeId} (paired : m.Paired x z strict F m')
    (inside : m.scopes.Inside F scope) :
    lookup scope (.text x) m = .error (.unbound (.text x)) m ∧
      lookup scope (.text z) m' = .error (.unbound (.text z)) m' := by
  obtain ⟨scopes', rfl, both⟩ := paired
  have none := both.resolve?_inside inside
  rw [lookup_apply, lookup_apply]
  dsimp only
  rw [both.lookup]
  unfold Scopes.lookup
  rw [none.1, none.2]
  exact ⟨rfl, rfl⟩

theorem agree_updateScopes {problem? : Scopes → Option Error} {change change' : Scopes → Scopes}
    (paired : m.Paired x z strict F m') (same : problem? m'.scopes = problem? m.scopes)
    (later : m.scopes.Later F F₁ (change m.scopes))
    (changed : (change m.scopes).Paired x z strict F₁ (change' m'.scopes)) :
    Agree x z strict F (updateScopes problem? change) (updateScopes problem? change') m m' := by
  cases h : problem? m.scopes with
  | some error =>
    refine agree_of_error ?_ ?_ (.same error) paired
    · rw [updateScopes_apply, h]
    · rw [updateScopes_apply, same, h]
  | none =>
    have here : updateScopes problem? change m = .ok () { m with scopes := change m.scopes } := by
      rw [updateScopes_apply, h]
    have there : updateScopes problem? change' m' =
        .ok () { m with scopes := change' m'.scopes } := by
      rw [updateScopes_apply, same, h]
      obtain ⟨scopes', rfl, both⟩ := paired
      rfl
    exact agree_of_ok here there later ⟨change' m'.scopes, rfl, changed⟩ trivial

/-- A name is declared in both runs; inside the fence, it is neither of the two. -/
theorem agree_declare (paired : m.Paired x z strict F m') {scope : ScopeId} {name : Name}
    (other : F scope → name ≠ .text x ∧ name ≠ .text z) (value : Value) (isConst : Bool) :
    Agree x z strict F (declare scope name value isConst) (declare scope name value isConst)
      m m' := by
  obtain ⟨scopes', rfl, both⟩ := id paired
  obtain ⟨later, bound⟩ := both.bind other value isConst
  exact agree_updateScopes paired (both.declareProblem? scope name) later bound

theorem agree_declareFunction (paired : m.Paired x z strict F m') {scope : ScopeId} {name : Name}
    (other : F scope → name ≠ .text x ∧ name ≠ .text z) {code code' : Code}
    (alike : code.Alike x z strict F m.scopes scope code') :
    Agree x z strict F (declareFunction scope name code) (declareFunction scope name code')
      m m' := by
  obtain ⟨scopes', rfl, both⟩ := id paired
  obtain ⟨later, bound⟩ := both.bindFunction other alike
  exact agree_updateScopes paired (both.declareProblem? scope name) later bound

theorem agree_assign (paired : m.Paired x z strict F m') (scope : ScopeId) (name : Name)
    (value : Value) :
    Agree x z strict F (assign scope name value) (assign scope name value) m m' := by
  obtain ⟨scopes', rfl, both⟩ := id paired
  obtain ⟨later, stored⟩ := both.store scope name value
  exact agree_updateScopes paired (both.assignProblem? scope name) later stored

/-- Inside the fence, neither name can be assigned to. -/
theorem assign_inside {scope : ScopeId} (paired : m.Paired x z strict F m')
    (inside : m.scopes.Inside F scope) (value : Value) :
    assign scope (.text x) value m = .error (.unbound (.text x)) m ∧
      assign scope (.text z) value m' = .error (.unbound (.text z)) m' := by
  obtain ⟨scopes', rfl, both⟩ := paired
  have none := both.resolve?_inside inside
  unfold assign
  rw [updateScopes_apply, updateScopes_apply]
  dsimp only
  rw [both.assignProblem?]
  unfold Scopes.assignProblem?
  rw [none.1, none.2]
  exact ⟨rfl, rfl⟩

theorem agree_emit (paired : m.Paired x z strict F m') (settings : Settings) (event : Event) :
    Agree x z strict F (emit settings event) (emit settings event) m m' := by
  obtain ⟨scopes', rfl, both⟩ := id paired
  unfold emit
  split
  · exact agree_of_ok rfl rfl (.refl F _) ⟨scopes', rfl, both⟩ trivial
  · exact agree_pure paired ()

theorem agree_emit? (paired : m.Paired x z strict F m') (settings : Settings) (level : Nat)
    (event : Option Event) :
    Agree x z strict F (emit? settings level event) (emit? settings level event) m m' := by
  cases event with
  | some event => exact agree_emit paired settings event
  | none =>
    change Agree x z strict F (if level ≤ settings.logLevel then throw .wrongShape else pure ())
      (if level ≤ settings.logLevel then throw .wrongShape else pure ()) m m'
    split
    · exact agree_throw paired _
    · exact agree_pure paired ()

/-! ## Properties -/

theorem agree_handleTarget (paired : m.Paired x z strict F m') (scope : ScopeId) (name : Name) :
    Agree x z strict F (handleTarget scope name) (handleTarget scope name) m m' := by
  refine (agree_lookup paired scope name).bind ?_
  intro value F₁ m₁ m₁' _ paired₁
  split
  · exact agree_pure paired₁ _
  · exact agree_throw paired₁ _

theorem agree_readPath (paired : m.Paired x z strict F m') (settings : Settings) (scope : ScopeId)
    (name : Name) (properties : Datum) :
    Agree x z strict F (readPath settings scope name properties)
      (readPath settings scope name properties) m m' := by
  refine (agree_handleTarget paired scope name).bind ?_
  intro target F₁ m₁ m₁' _ paired₁
  split
  · refine agree_get ?_
    have objects : m₁'.objects = m₁.objects := by
      obtain ⟨scopes', rfl, -⟩ := paired₁
      rfl
    rw [objects]
    refine (agree_ofExcept paired₁ _).bind ?_
    intro value F₂ m₂ m₂' _ paired₂
    refine (agree_emit? paired₂ settings _ _).bind ?_
    intro _ F₃ m₃ m₃' _ paired₃
    exact agree_ofExcept paired₃ _
  · exact agree_throw paired₁ _

theorem agree_assignPath (paired : m.Paired x z strict F m') (settings : Settings) (scope : ScopeId)
    (name property : String) (rest : List String) (value : Value) :
    Agree x z strict F (assignPath settings scope name property rest value)
      (assignPath settings scope name property rest value) m m' := by
  refine (agree_handleTarget paired scope (.text name)).bind ?_
  intro target F₁ m₁ m₁' _ paired₁
  refine agree_get ?_
  obtain ⟨scopes', rfl, both⟩ := id paired₁
  dsimp only
  cases settings.writePath m₁.objects name (Node.path name (property :: rest)) value target property
      rest with
  | error error => exact agree_of_error rfl rfl (.same error) paired₁
  | ok objects =>
    have written : Agree x z strict F₁ (EStateM.set { m₁ with objects := objects })
        (EStateM.set { m₁ with scopes := scopes', objects := objects }) m₁
        { m₁ with scopes := scopes' } :=
      agree_of_ok rfl rfl (.refl F₁ _) ⟨scopes', rfl, both⟩ trivial
    simp only [ofExcept, pure_bind]
    refine written.bind ?_
    intro _ F₂ m₂ m₂' _ paired₂
    exact agree_emit paired₂ settings _

/-! ## Expressions -/

/-- Calls of functions that are alike agree. -/
def CallerAgrees (x z : String) (strict : Prop) (call : Caller) : Prop :=
  ∀ ⦃F : Fence⦄ ⦃m m' : Machine⦄ ⦃home : ScopeId⦄ ⦃name : Name⦄ ⦃code code' : Code⦄
    ⦃arguments : List Value⦄, m.Paired x z strict F m' →
    code.Alike x z strict F m.scopes home code' →
    Agree x z strict F (call home name code arguments) (call home name code' arguments) m m'

/-- Where a tree stands: uses of `x` that are out of scope are made from inside the fence, and there
`z` does not occur. -/
structure Stands (z : String) (strict : Prop) (F : Fence) (scopes : Scopes) (scope : ScopeId)
    (declared : Bool) (mentioned : Bool) : Prop where
  inside : declared = false → scopes.Inside F scope
  fresh : declared = false ∨ strict → mentioned = false

theorem Stands.later {scopes later : Scopes} {scope : ScopeId} {declared mentioned : Bool}
    (stands : Stands z strict F scopes scope declared mentioned) (h : scopes.Later F F₁ later)
    (exist : ∀ id, F id → id < scopes.cells.size) :
    Stands z strict F₁ later scope declared mentioned :=
  ⟨fun free => h.inside exist (stands.inside free), stands.fresh⟩

/-- A part of a tree stands where the tree does. -/
theorem Stands.part {scopes : Scopes} {scope : ScopeId} {declared mentioned mentioned' : Bool}
    (stands : Stands z strict F scopes scope declared mentioned)
    (h : mentioned = false → mentioned' = false) :
    Stands z strict F scopes scope declared mentioned' :=
  ⟨stands.inside, fun free => h (stands.fresh free)⟩

theorem agree_applyFunction {call : Caller} (agrees : CallerAgrees x z strict call)
    (paired : m.Paired x z strict F m') (scope : ScopeId) (name : Name) (count? : Option Nat)
    {arguments arguments' : Eval (List Value)}
    (harguments : ∀ {F₁ : Fence} {m₁ m₁' : Machine}, m.scopes.Later F F₁ m₁.scopes →
      m₁.Paired x z strict F₁ m₁' → Agree x z strict F₁ arguments arguments' m₁ m₁') :
    Agree x z strict F (applyFunction call scope name count? arguments)
      (applyFunction call scope name count? arguments') m m' := by
  refine (agree_lookup paired scope name).bind ?_
  intro value F₁ m₁ m₁' later₁ paired₁
  split
  · rename_i home declared
    refine agree_get ?_
    obtain ⟨scopes', rfl, both⟩ := id paired₁
    have alike := both.code home declared
    have params : (scopes'.code home declared).params =
        (m₁.scopes.code home declared).params := by
      obtain ⟨_, same, -⟩ := alike
      rw [same]
      rfl
    dsimp only
    rw [params]
    split
    · split
      · refine (harguments later₁ paired₁).bind ?_
        intro values F₂ m₂ m₂' later₂ paired₂
        exact agrees paired₂ (alike.later later₂ both.exist)
      · exact agree_throw paired₁ _
    · exact agree_throw paired₁ _
  · exact agree_throw paired₁ _

section Trees

variable {settings : Settings} {call : Caller} {scope : ScopeId}

mutual

theorem agree_evaluate (agrees : CallerAgrees x z strict call) (node : Node) {declared : Bool}
    {F : Fence} {m m' : Machine}
    (stands : Stands z strict F m.scopes scope declared (node.mentions z))
    (paired : m.Paired x z strict F m') :
    Agree x z strict F (evaluate settings call scope node)
      (evaluate settings call scope (node.redirect x z declared)) m m' := by
  cases node with
  | literal value => exact agree_pure paired value
  | identifier name properties =>
    rw [Node.redirect, evaluate, evaluate]
    rcases Node.redirectName_eq x z declared name with same | ⟨free, rfl, other⟩
    · rw [same]
      split
      · exact agree_lookup paired scope name
      · exact agree_readPath paired settings scope name properties
    · obtain ⟨here, there⟩ := lookup_inside paired (stands.inside free)
      rw [other]
      split
      · exact agree_of_error here there .unbound paired
      · exact agree_bind_of_error (bind_of_error here _) (bind_of_error there _) .unbound paired
  | call name arguments =>
    rw [Node.redirect, evaluate, evaluate, Node.redirectAll_length]
    rcases Node.redirectName_eq x z declared name with same | ⟨free, rfl, other⟩
    · rw [same]
      refine agree_applyFunction agrees paired scope name _ ?_
      intro F₁ m₁ m₁' later paired₁
      refine agree_evaluateArguments agrees arguments name 1 ?_ paired₁
      exact (stands.later later paired.exist).part fun h => (Node.fresh_call h).2
    · obtain ⟨here, there⟩ := lookup_inside paired (stands.inside free)
      rw [other]
      exact agree_bind_of_error here there .unbound paired
  | unary op operand =>
    rw [Node.redirect, evaluate, evaluate]
    refine (agree_evaluate agrees operand stands paired).bind ?_
    intro value F₁ m₁ m₁' _ paired₁
    refine (agree_demand paired₁ _ value).bind ?_
    intro value F₂ m₂ m₂' _ paired₂
    exact agree_ofExcept paired₂ _
  | binary op left right =>
    rw [Node.redirect, evaluate, evaluate]
    refine (agree_evaluate agrees left (stands.part fun h => (Node.fresh_binary h).1)
      paired).bind ?_
    intro a F₁ m₁ m₁' later₁ paired₁
    refine (agree_demand paired₁ _ a).bind ?_
    intro a F₂ m₂ m₂' later₂ paired₂
    have stands₂ := (stands.later later₁ paired.exist).later later₂ paired₁.exist
    refine (agree_evaluate agrees right (stands₂.part fun h => (Node.fresh_binary h).2)
      paired₂).bind ?_
    intro b F₃ m₃ m₃' _ paired₃
    refine (agree_demand paired₃ _ b).bind ?_
    intro b F₄ m₄ m₄' _ paired₄
    refine agree_get ?_
    have host : settings.host m₄' = settings.host m₄ := by
      obtain ⟨scopes', rfl, -⟩ := paired₄
      rfl
    rw [host]
    exact agree_ofExcept paired₄ _
  | data datum =>
    rw [Node.redirect, evaluate]
    unfold evaluateData
    split
    · refine agree_applyFunction agrees paired scope _ _ ?_
      intro F₁ m₁ m₁' _ paired₁
      unfold refuseArguments
      split
      · exact agree_pure paired₁ _
      · exact agree_throw paired₁ _
    · exact agree_throw paired _
  | block | declaration | assignment | function | giveBack | callStatement | choice | absent
  | bare => exact agree_throw paired _
termination_by structural node

theorem agree_evaluateArguments (agrees : CallerAgrees x z strict call) (nodes : List Node)
    (name : Name) (index : Nat) {declared : Bool} {F : Fence} {m m' : Machine}
    (stands : Stands z strict F m.scopes scope declared (Node.anyMentions z nodes))
    (paired : m.Paired x z strict F m') :
    Agree x z strict F (evaluateArguments settings call scope name index nodes)
      (evaluateArguments settings call scope name index (Node.redirectAll x z declared nodes))
      m m' := by
  cases nodes with
  | nil => exact agree_pure paired []
  | cons node rest =>
    rw [Node.redirectAll, evaluateArguments, evaluateArguments]
    refine (agree_evaluate agrees node (stands.part fun h => (Node.fresh_cons h).1)
      paired).bind ?_
    intro value F₁ m₁ m₁' later₁ paired₁
    refine (agree_demand paired₁ _ value).bind ?_
    intro value F₂ m₂ m₂' later₂ paired₂
    have stands₂ := (stands.later later₁ paired.exist).later later₂ paired₁.exist
    refine (agree_evaluateArguments agrees rest name (index + 1)
      (stands₂.part fun h => (Node.fresh_cons h).2) paired₂).bind ?_
    intro values F₃ m₃ m₃' _ paired₃
    exact agree_pure paired₃ _
termination_by structural nodes

end

theorem agree_evaluateValue (agrees : CallerAgrees x z strict call) (node : Node) {declared : Bool}
    (description : String) (stands : Stands z strict F m.scopes scope declared (node.mentions z))
    (paired : m.Paired x z strict F m') :
    Agree x z strict F (evaluateValue settings call scope description node)
      (evaluateValue settings call scope description (node.redirect x z declared)) m m' := by
  refine (agree_evaluate agrees node stands paired).bind ?_
  intro value F₁ m₁ m₁' _ paired₁
  exact agree_demand paired₁ description value

/-! ## Statements -/

/-- Where statements stand: besides what holds of every tree, they declare neither name in a scope
inside the fence. -/
structure Settles (x z : String) (strict : Prop) (F : Fence) (scopes : Scopes) (scope : ScopeId)
    (declared declares mentioned : Bool) : Prop where
  stands : Stands z strict F scopes scope declared mentioned
  undeclared : declared = false → declares = false
  outside : declared = true → ¬ F scope
  exist : scope < scopes.cells.size

theorem Settles.later {scopes later : Scopes} {declared declares mentioned : Bool}
    (settles : Settles x z strict F scopes scope declared declares mentioned)
    (h : scopes.Later F F₁ later) (exist : ∀ id, F id → id < scopes.cells.size) :
    Settles x z strict F₁ later scope declared declares mentioned := by
  refine ⟨settles.stands.later h exist, settles.undeclared, ?_, ?_⟩
  · intro isDeclared inside
    exact settles.outside isDeclared (h.old scope settles.exist inside)
  · exact Nat.lt_of_lt_of_le settles.exist h.size

theorem Settles.part {scopes : Scopes} {declared declares mentioned declares' mentioned' : Bool}
    (settles : Settles x z strict F scopes scope declared declares mentioned)
    (hdeclares : declares = false → declares' = false)
    (hmentioned : mentioned = false → mentioned' = false) :
    Settles x z strict F scopes scope declared declares' mentioned' :=
  ⟨settles.stands.part hmentioned, fun free => hdeclares (settles.undeclared free),
    settles.outside, settles.exist⟩

theorem Settles.head {scopes : Scopes} {declared : Bool} {node : Node} {rest : List Node}
    (settles : Settles x z strict F scopes scope declared (Node.anyDeclares x (node :: rest))
      (Node.anyMentions z (node :: rest))) :
    Settles x z strict F scopes scope declared (node.declares x) (node.mentions z) :=
  settles.part (fun h => (Node.undeclared_cons h).1) fun h => (Node.fresh_cons h).1

theorem Settles.tail {scopes : Scopes} {declared : Bool} {node : Node} {rest : List Node}
    (settles : Settles x z strict F scopes scope declared (Node.anyDeclares x (node :: rest))
      (Node.anyMentions z (node :: rest))) :
    Settles x z strict F scopes scope declared (Node.anyDeclares x rest)
      (Node.anyMentions z rest) :=
  settles.part (fun h => (Node.undeclared_cons h).2) fun h => (Node.fresh_cons h).2

/-- Inside the fence, nothing is declared and `z` is not mentioned. -/
theorem Settles.free {scopes : Scopes} {declared declares mentioned : Bool}
    (settles : Settles x z strict F scopes scope declared declares mentioned) (inside : F scope) :
    declares = false ∧ mentioned = false := by
  cases declared with
  | false => exact ⟨settles.undeclared rfl, settles.stands.fresh (.inl rfl)⟩
  | true => exact absurd inside (settles.outside rfl)

theorem agree_executeDeclaration (agrees : CallerAgrees x z strict call) {declared : Bool}
    (isConst : Bool) (name : Name) (initial : Node)
    (settles : Settles x z strict F m.scopes scope declared
      ((Node.declaration isConst name initial).declares x)
      ((Node.declaration isConst name initial).mentions z))
    (paired : m.Paired x z strict F m') :
    Agree x z strict F (executeDeclaration settings call scope isConst name initial)
      (executeDeclaration settings call scope isConst name (initial.redirect x z declared))
      m m' := by
  refine (agree_evaluateValue agrees initial _
    (settles.stands.part fun h => (Node.fresh_declaration h).2) paired).bind ?_
  intro value F₁ m₁ m₁' later₁ paired₁
  have settles₁ := settles.later later₁ paired.exist
  have other : F₁ scope → name ≠ .text x ∧ name ≠ .text z := by
    intro inside
    obtain ⟨undeclared, fresh⟩ := settles₁.free inside
    exact ⟨beq_eq_false_iff_ne.mp undeclared, (Node.fresh_declaration fresh).1⟩
  refine (agree_declare paired₁ other value isConst).bind ?_
  intro _ F₂ m₂ m₂' _ paired₂
  refine (agree_emit paired₂ settings _).bind ?_
  intro _ F₃ m₃ m₃' _ paired₃
  exact agree_pure paired₃ _

theorem agree_executeRoute (agrees : CallerAgrees x z strict call) {declared : Bool}
    (name : String) (properties : List String) (value : Node)
    (stands : Stands z strict F m.scopes scope declared (value.mentions z))
    (paired : m.Paired x z strict F m') :
    Agree x z strict F (executeRoute settings call scope name properties value)
      (executeRoute settings call scope name properties (value.redirect x z declared)) m m' := by
  refine (agree_evaluateValue agrees value _ stands paired).bind ?_
  intro result F₁ m₁ m₁' _ paired₁
  have logged : ∀ {F : Fence} {m m' : Machine}, m.Paired x z strict F m' →
      Agree x z strict F
        (do emit settings (.assigned (Node.path name properties) result); pure Completion.normal)
        (do emit settings (.assigned (Node.path name properties) result); pure Completion.normal)
        m m' := by
    intro F m m' paired
    refine (agree_emit paired settings _).bind ?_
    intro _ F₁ m₁ m₁' _ paired₁
    exact agree_pure paired₁ _
  dsimp only
  split
  · refine (agree_assign paired₁ scope _ result).bind ?_
    intro _ F₂ m₂ m₂' _ paired₂
    exact logged paired₂
  · refine (agree_assignPath paired₁ settings scope name _ _ result).bind ?_
    intro _ F₂ m₂ m₂' _ paired₂
    exact logged paired₂

/-- An assignment to a name that is out of scope fails in both runs, once its value is known. -/
theorem agree_executeRoute_inside (agrees : CallerAgrees x z strict call)
    (properties : List String) (value : Node)
    (stands : Stands z strict F m.scopes scope false (value.mentions z))
    (paired : m.Paired x z strict F m') :
    Agree x z strict F (executeRoute settings call scope x properties value)
      (executeRoute settings call scope z properties (value.redirect x z false)) m m' := by
  have evaluated : Agree x z strict F
      (evaluateValue settings call scope
        ("value assigned to '" ++ Node.path x properties ++ "'") value)
      (evaluateValue settings call scope
        ("value assigned to '" ++ Node.path z properties ++ "'") (value.redirect x z false))
      m m' := by
    refine (agree_evaluate agrees value stands paired).bind ?_
    intro result F₁ m₁ m₁' _ paired₁
    unfold demand
    split
    · exact agree_of_error rfl rfl (.noValue properties) paired₁
    · exact agree_pure paired₁ result
  refine evaluated.bind ?_
  intro result F₁ m₁ m₁' later₁ paired₁
  have inside := (stands.later later₁ paired.exist).inside rfl
  obtain ⟨unread, unread'⟩ := lookup_inside paired₁ inside
  obtain ⟨unset, unset'⟩ := assign_inside paired₁ inside result
  dsimp only
  split
  · exact agree_bind_of_error unset unset' .unbound paired₁
  · refine agree_bind_of_error ?_ ?_ .unbound paired₁
    · exact bind_of_error (bind_of_error unread _) _
    · exact bind_of_error (bind_of_error unread' _) _

theorem agree_executeAssignment (agrees : CallerAgrees x z strict call) {declared : Bool}
    (target value : Node)
    (stands : Stands z strict F m.scopes scope declared ((Node.assignment target value).mentions z))
    (paired : m.Paired x z strict F m') :
    Agree x z strict F (executeAssignment settings call scope target value)
      (executeAssignment settings call scope (target.redirect x z declared)
        (value.redirect x z declared)) m m' := by
  have standsValue : Stands z strict F m.scopes scope declared (value.mentions z) :=
    stands.part fun h => (Node.fresh_assignment h).2
  cases target with
  | identifier name properties =>
    rw [Node.redirect]
    unfold executeAssignment
    rcases Node.redirectName_eq x z declared name with same | ⟨rfl, rfl, other⟩
    · rw [same]
      dsimp only
      split
      · exact agree_executeRoute agrees _ _ value standsValue paired
      · exact agree_throw paired _
    · rw [other]
      unfold Node.route?
      cases properties with
      | tuple items =>
        dsimp only
        cases Datum.words? items with
        | none => exact agree_throw paired _
        | some words => exact agree_executeRoute_inside agrees words value standsValue paired
      | _ => exact agree_throw paired _
  | _ => exact agree_throw paired _

theorem agree_executeFunction {declared : Bool} (name : Name) (params : Datum) (body : Node)
    (settles : Settles x z strict F m.scopes scope declared
      ((Node.function name params body).declares x) ((Node.function name params body).mentions z))
    (paired : m.Paired x z strict F m') :
    Agree x z strict F (executeFunction settings scope name params body)
      (executeFunction settings scope name params
        (body.redirect x z (declared || Code.declares x ⟨params, body⟩))) m m' := by
  have other : F scope → name ≠ .text x ∧ name ≠ .text z := by
    intro inside
    obtain ⟨undeclared, fresh⟩ := settles.free inside
    exact ⟨beq_eq_false_iff_ne.mp undeclared, (Node.fresh_function fresh).1⟩
  have alike : Code.Alike x z strict F m.scopes scope ⟨params, body⟩
      ⟨params, body.redirect x z (declared || Code.declares x ⟨params, body⟩)⟩ := by
    refine ⟨declared, rfl, settles.stands.inside, ?_⟩
    intro free
    exact (Node.fresh_function (settles.stands.fresh free)).2
  refine (agree_declareFunction paired other alike).bind ?_
  intro _ F₁ m₁ m₁' _ paired₁
  refine (agree_emit? paired₁ settings _ _).bind ?_
  intro _ F₂ m₂ m₂' _ paired₂
  exact agree_pure paired₂ _

theorem agree_executeNone (paired : m.Paired x z strict F m') (field : Datum) :
    Agree x z strict F (executeNone field) (executeNone field) m m' := by
  unfold executeNone
  split
  · exact agree_pure paired _
  · exact agree_throw paired _
  · exact agree_throw paired _

/-- A scope is made in both runs; it is inside the fence if the code that runs in it does not
declare `x`. -/
theorem agree_newScope {declared mentioned : Bool} (declares : Bool)
    (stands : Stands z strict F m.scopes scope declared mentioned)
    (paired : m.Paired x z strict F m') :
    Agree x z strict F (newScope scope) (newScope scope) m m' fun F₁ inner m₁ =>
      Settles x z strict F₁ m₁.scopes inner (declared || declares) declares mentioned := by
  obtain ⟨scopes', rfl, both⟩ := paired
  obtain ⟨later, added⟩ := both.add (m.scopes.chain scope) ((declared || declares) = false)
  have there : newScope scope { m with scopes := scopes' } =
      .ok m.scopes.cells.size { m with scopes := (scopes'.add (m.scopes.chain scope)).2 } := by
    rw [newScope_apply]
    dsimp only
    rw [both.size, both.chain]
  refine agree_of_ok (newScope_apply scope m) there later ⟨_, rfl, added⟩ ?_
  refine ⟨⟨?_, ?_⟩, fun free => (Bool.or_eq_false_iff.mp free).2, ?_, ?_⟩
  · intro free
    exact Scopes.inside_add (stands.inside (Bool.or_eq_false_iff.mp free).1) free
  · intro free
    exact stands.fresh (free.imp_left fun free => (Bool.or_eq_false_iff.mp free).1)
  · rintro isDeclared (old | ⟨free, -⟩)
    · exact absurd (both.exist _ old) (Nat.lt_irrefl _)
    · rw [isDeclared] at free
      cases free
  · simp [Scopes.add]

mutual

theorem agree_execute (agrees : CallerAgrees x z strict call) (node : Node) {declared : Bool}
    {scope : ScopeId} {F : Fence} {m m' : Machine}
    (settles : Settles x z strict F m.scopes scope declared (node.declares x) (node.mentions z))
    (paired : m.Paired x z strict F m') :
    Agree x z strict F (execute settings call scope node)
      (execute settings call scope (node.redirect x z declared)) m m' := by
  cases node with
  | block statements =>
    rw [Node.redirect, execute, execute]
    exact agree_executeAll agrees statements settles paired
  | declaration isConst name initial =>
    rw [Node.redirect, execute, execute]
    exact agree_executeDeclaration agrees isConst name initial settles paired
  | assignment target value =>
    rw [Node.redirect, execute, execute]
    exact agree_executeAssignment agrees target value settles.stands paired
  | function name params body =>
    rw [Node.redirect, execute, execute]
    exact agree_executeFunction name params body settles paired
  | giveBack value =>
    rw [Node.redirect]
    by_cases none : value = .absent
    · rw [none, Node.redirect, execute]
      exact agree_pure paired _
    · rw [execute_giveBack none, execute_giveBack (mt Node.redirect_eq_absent.mp none)]
      refine (agree_evaluateValue agrees value _ settles.stands paired).bind ?_
      intro result F₁ m₁ m₁' _ paired₁
      exact agree_pure paired₁ _
  | callStatement inner =>
    rw [Node.redirect, execute, execute]
    refine (agree_evaluate agrees inner settles.stands paired).bind ?_
    intro _ F₁ m₁ m₁' _ paired₁
    exact agree_pure paired₁ _
  | choice condition thenBlock elseBlock =>
    rw [Node.redirect, execute, execute]
    refine (agree_evaluateValue agrees condition _
      (settles.stands.part fun h => (Node.fresh_choice h).1) paired).bind ?_
    intro value F₁ m₁ m₁' later₁ paired₁
    refine (agree_ofExcept paired₁ _).bind ?_
    intro truth F₂ m₂ m₂' later₂ paired₂
    refine (agree_emit paired₂ settings _).bind ?_
    intro _ F₃ m₃ m₃' later₃ paired₃
    have stands := ((settles.stands.later later₁ paired.exist).later later₂ paired₁.exist).later
      later₃ paired₂.exist
    split
    · exact agree_executeBranch agrees thenBlock
        (stands.part fun h => (Node.fresh_choice h).2.1) paired₃
    · exact agree_executeBranch agrees elseBlock
        (stands.part fun h => (Node.fresh_choice h).2.2) paired₃
  | data datum =>
    rw [Node.redirect, execute]
    unfold executeData
    split
    · exact agree_executeNone paired _
    · exact agree_throw paired _
  | literal | identifier | call | unary | binary | absent | bare => exact agree_throw paired _
termination_by structural node

theorem agree_executeBranch (agrees : CallerAgrees x z strict call) (node : Node) {declared : Bool}
    {scope : ScopeId} {F : Fence} {m m' : Machine}
    (stands : Stands z strict F m.scopes scope declared (node.mentions z))
    (paired : m.Paired x z strict F m') :
    Agree x z strict F (executeBranch settings call scope node)
      (executeBranch settings call scope (node.redirect x z (declared || node.declares x)))
      m m' := by
  cases node with
  | absent => exact agree_pure paired _
  | block statements =>
    rw [Node.redirect, executeBranch, executeBranch]
    refine (agree_newScope ((Node.block statements).declares x) stands paired).bindWith ?_
    intro inner F₁ m₁ m₁' _ paired₁ settles
    exact agree_executeAll agrees statements settles paired₁
  | data datum =>
    rw [Node.redirect]
    unfold executeBranch
    split
    · exact agree_pure paired _
    · simp_all
    · exact agree_executeNone paired _
    · exact agree_throw paired _
  | _ => exact agree_throw paired _
termination_by structural node

theorem agree_executeAll (agrees : CallerAgrees x z strict call) (nodes : List Node)
    {declared : Bool} {scope : ScopeId} {F : Fence} {m m' : Machine}
    (settles : Settles x z strict F m.scopes scope declared (Node.anyDeclares x nodes)
      (Node.anyMentions z nodes))
    (paired : m.Paired x z strict F m') :
    Agree x z strict F (executeAll settings call scope nodes)
      (executeAll settings call scope (Node.redirectAll x z declared nodes)) m m' := by
  cases nodes with
  | nil => exact agree_pure paired _
  | cons node rest =>
    rw [Node.redirectAll, executeAll, executeAll]
    refine (agree_execute agrees node settles.head paired).bind ?_
    intro completion F₁ m₁ m₁' later₁ paired₁
    split
    · exact agree_executeAll agrees rest (settles.later later₁ paired.exist).tail paired₁
    · exact agree_pure paired₁ _
termination_by structural nodes

end

end Trees

/-! ## Calls -/

end ScopeScript.Eval
