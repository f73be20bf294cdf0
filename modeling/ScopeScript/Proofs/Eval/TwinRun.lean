import ScopeScript.Proofs.Eval.Activity
import ScopeScript.Proofs.Scope.Twin
set_option autoImplicit false

/-!
# Eval: runs among twin scopes

From twin states, a run and its twin do the same: both succeed or both fail with the same error, the
results are the same but for the numbers of scopes, and the states they leave are twins again.  On
the way, the scopes change by changes in the territory only.

A state is a twin of itself, so all that this says about the changes of a run is true of every run.

The proofs go by recursion on the tree for any caller that calls twin functions alike, and by
induction on how deep calls may be nested for the caller.
-/

namespace ScopeScript

/-- States with twin scopes and the same host objects. -/
structure Machine.Twin (ρ : ScopeId → ScopeId) (T : Territory) (m m' : Machine) : Prop where
  scopes : m.scopes.Twin ρ T m'.scopes
  objects : m'.objects = m.objects

/-- The completion with its value renumbered. -/
def Completion.renumber (ρ : ScopeId → ScopeId) : Completion → Completion
  | .normal => .normal
  | .returned value => .returned (value.map (Value.renumber ρ))

namespace Eval

variable {α β : Type} {ρ : ScopeId → ScopeId} {T : Territory} {m m' : Machine}

/-! ## Computations in parallel -/

/-- From the states `m` and `m'`, the two computations end alike: with the same error or with
results that `R` relates, by changes in the territory and in states that are twins again. -/
def Parallel (ρ : ScopeId → ScopeId) (T : Territory) (y y' : Eval α) (m m' : Machine)
    (R : Scopes → α → α → Prop := fun _ _ _ => True) : Prop :=
  match y m, y' m' with
  | .ok a m₁, .ok a' m₁' =>
    Scopes.Changes T m.scopes m₁.scopes ∧ m₁.Twin ρ T m₁' ∧ R m₁.scopes a a'
  | .error error m₁, .error error' m₁' =>
    Scopes.Changes T m.scopes m₁.scopes ∧ m₁.Twin ρ T m₁' ∧ error' = error
  | _, _ => False

variable {Q : Scopes → α → α → Prop} {R : Scopes → β → β → Prop}

theorem parallel_of_ok {y y' : Eval α} {a a' : α} {m₁ m₁' : Machine} (h : y m = .ok a m₁)
    (h' : y' m' = .ok a' m₁') (changes : Scopes.Changes T m.scopes m₁.scopes)
    (twin : m₁.Twin ρ T m₁') (holds : Q m₁.scopes a a') : Parallel ρ T y y' m m' Q := by
  unfold Parallel
  rw [h, h']
  exact ⟨changes, twin, holds⟩

theorem parallel_of_error {y y' : Eval α} {error : Error} {m₁ m₁' : Machine}
    (h : y m = .error error m₁) (h' : y' m' = .error error m₁')
    (changes : Scopes.Changes T m.scopes m₁.scopes) (twin : m₁.Twin ρ T m₁') :
    Parallel ρ T y y' m m' Q := by
  unfold Parallel
  rw [h, h']
  exact ⟨changes, twin, rfl⟩

theorem parallel_pure (twin : m.Twin ρ T m') {a a' : α} (holds : Q m.scopes a a') :
    Parallel ρ T (pure a) (pure a') m m' Q :=
  parallel_of_ok rfl rfl .refl twin holds

theorem parallel_throw (twin : m.Twin ρ T m') (error : Error) :
    Parallel ρ T (throw error) (throw error) m m' Q := ⟨.refl, twin, rfl⟩

theorem parallel_get {f f' : Machine → Eval α} (h : Parallel ρ T (f m) (f' m') m m' Q) :
    Parallel ρ T (get >>= f) (get >>= f') m m' Q := h

theorem Parallel.ok {y y' : Eval α} {a : α} {m₁ : Machine} (h : Parallel ρ T y y' m m' Q)
    (hy : y m = .ok a m₁) :
    ∃ a' m₁', y' m' = .ok a' m₁' ∧ Scopes.Changes T m.scopes m₁.scopes ∧ m₁.Twin ρ T m₁' ∧
      Q m₁.scopes a a' := by
  unfold Parallel at h
  rw [hy] at h
  cases hy' : y' m' with
  | ok a' m₁' =>
    rw [hy'] at h
    exact ⟨a', m₁', rfl, h⟩
  | error error m₁' =>
    rw [hy'] at h
    exact h.elim

theorem Parallel.error {y y' : Eval α} {error : Error} {m₁ : Machine}
    (h : Parallel ρ T y y' m m' Q) (hy : y m = .error error m₁) :
    ∃ m₁', y' m' = .error error m₁' ∧ Scopes.Changes T m.scopes m₁.scopes ∧ m₁.Twin ρ T m₁' := by
  unfold Parallel at h
  rw [hy] at h
  cases hy' : y' m' with
  | ok a' m₁' =>
    rw [hy'] at h
    exact h.elim
  | error error' m₁' =>
    rw [hy'] at h
    obtain ⟨changes, twin, rfl⟩ := h
    exact ⟨m₁', rfl, changes, twin⟩

theorem Parallel.mono {y y' : Eval α} {Q' : Scopes → α → α → Prop}
    (h : Parallel ρ T y y' m m' Q) (imp : ∀ scopes a a', Q scopes a a' → Q' scopes a a') :
    Parallel ρ T y y' m m' Q' := by
  unfold Parallel at h ⊢
  revert h
  split
  · rintro ⟨changes, twin, holds⟩
    exact ⟨changes, twin, imp _ _ _ holds⟩
  · exact id
  · exact id

/-- On the way, the scopes change in the territory only, whether there is a result or an error. -/
theorem Parallel.changes {y y' : Eval α} (h : Parallel ρ T y y' m m' Q) :
    Scopes.Changes T m.scopes (y.leaves m).scopes := by
  unfold leaves
  cases hy : y m with
  | ok a m₁ =>
    obtain ⟨-, -, -, changes, -⟩ := h.ok hy
    exact changes
  | error error m₁ =>
    obtain ⟨-, -, changes, -⟩ := h.error hy
    exact changes

/-- The second part goes on from where the first one ended; there are no fewer scopes by then. -/
theorem Parallel.bind {y y' : Eval α} {f f' : α → Eval β} (hy : Parallel ρ T y y' m m' Q)
    (hf : ∀ a a' m₁ m₁', m.scopes.cells.size ≤ m₁.scopes.cells.size → m₁.Twin ρ T m₁' →
      Q m₁.scopes a a' → Parallel ρ T (f a) (f' a') m₁ m₁' R) :
    Parallel ρ T (y >>= f) (y' >>= f') m m' R := by
  cases hm : y m with
  | error error m₁ =>
    obtain ⟨m₁', hm', changes, twin⟩ := hy.error hm
    exact parallel_of_error (bind_of_error hm f) (bind_of_error hm' f') changes twin
  | ok a m₁ =>
    obtain ⟨a', m₁', hm', changes, twin, holds⟩ := hy.ok hm
    have after := hf a a' m₁ m₁' (Scopes.Changes.size_le changes) twin holds
    cases hm₁ : f a m₁ with
    | error error m₂ =>
      obtain ⟨m₂', hm₁', changes', twin'⟩ := after.error hm₁
      exact parallel_of_error ((bind_of_ok hm f).trans hm₁) ((bind_of_ok hm' f').trans hm₁')
        (changes.trans changes') twin'
    | ok b m₂ =>
      obtain ⟨b', m₂', hm₁', changes', twin', holds'⟩ := after.ok hm₁
      exact parallel_of_ok ((bind_of_ok hm f).trans hm₁) ((bind_of_ok hm' f').trans hm₁')
        (changes.trans changes') twin' holds'

/-! ## Results -/

/-- The same value of the territory under two numberings. -/
def SameValue (ρ : ScopeId → ScopeId) (T : Territory) (scopes : Scopes) (value value' : Value) :
    Prop :=
  value' = value.renumber ρ ∧ T.HoldsValue scopes value

/-- The same values of the territory under two numberings. -/
def SameValues (ρ : ScopeId → ScopeId) (T : Territory) (scopes : Scopes)
    (values values' : List Value) : Prop :=
  values' = values.map (Value.renumber ρ) ∧ ∀ value ∈ values, T.HoldsValue scopes value

/-- The same completion under two numberings. -/
def SameCompletion (ρ : ScopeId → ScopeId) (T : Territory) (scopes : Scopes)
    (completion completion' : Completion) : Prop :=
  completion' = completion.renumber ρ ∧
    ∀ value, completion = .returned (some value) → T.HoldsValue scopes value

theorem sameValue_of_home? {scopes : Scopes} {value : Value} (h : value.home? = none) :
    SameValue ρ T scopes value value :=
  ⟨(Value.renumber_of_home? h).symm, Territory.holdsValue_of_home?_eq_none h⟩

theorem sameCompletion_normal (scopes : Scopes) : SameCompletion ρ T scopes .normal .normal :=
  ⟨rfl, by simp⟩

/-! ## Single operations -/

theorem parallel_ofExcept (twin : m.Twin ρ T m') (result : Except Error α)
    (holds : ∀ a, result = .ok a → Q m.scopes a a) :
    Parallel ρ T (ofExcept result) (ofExcept result) m m' Q := by
  cases result with
  | ok a => exact parallel_pure twin (holds a rfl)
  | error error => exact parallel_throw twin error

theorem parallel_demand (twin : m.Twin ρ T m') (description : String) {value value' : Value}
    (same : SameValue ρ T m.scopes value value') :
    Parallel ρ T (demand description value) (demand description value') m m' (SameValue ρ T) := by
  obtain ⟨rfl, holds⟩ := same
  unfold demand
  rw [Value.isSentinel_renumber]
  split
  · exact parallel_throw twin _
  · exact parallel_pure twin ⟨rfl, holds⟩

theorem parallel_lookup (twin : m.Twin ρ T m') {scope : ScopeId} (here : T.Holds m.scopes scope)
    (name : Name) :
    Parallel ρ T (lookup scope name) (lookup (ρ scope) name) m m' (SameValue ρ T) := by
  unfold Parallel
  rw [lookup_apply, lookup_apply, twin.scopes.lookup here]
  cases h : m.scopes.lookup scope name with
  | ok value => exact ⟨.refl, twin, rfl, twin.scopes.settled.lookup here h⟩
  | error error => exact ⟨.refl, twin, rfl⟩

theorem parallel_updateScopes (twin : m.Twin ρ T m') {problem? problem?' : Scopes → Option Error}
    {change change' : Scopes → Scopes} (same : problem?' m'.scopes = problem? m.scopes)
    (changed : problem? m.scopes = none → Scopes.Change T m.scopes (change m.scopes) ∧
      (change m.scopes).Twin ρ T (change' m'.scopes)) :
    Parallel ρ T (updateScopes problem? change) (updateScopes problem?' change') m m' := by
  unfold Parallel
  rw [updateScopes_apply, updateScopes_apply, same]
  cases h : problem? m.scopes with
  | some error => exact ⟨.refl, twin, rfl⟩
  | none => exact ⟨.single (changed h).1, ⟨(changed h).2, twin.objects⟩, trivial⟩

theorem binding?_eq_none_of_declareProblem? {scopes : Scopes} {scope : ScopeId} {name : Name}
    (h : scopes.declareProblem? scope name = none) : scopes.binding? scope name = none := by
  unfold Scopes.declareProblem? at h
  split at h
  · cases h
  · rename_i free
    simpa using free

theorem parallel_declare (twin : m.Twin ρ T m') {scope : ScopeId} (here : T.Holds m.scopes scope)
    (isOpen : T.isOpen scope) (name : Name) {value value' : Value}
    (same : SameValue ρ T m.scopes value value') (isConst : Bool) :
    Parallel ρ T (declare scope name value isConst) (declare (ρ scope) name value' isConst)
      m m' := by
  obtain ⟨rfl, holds⟩ := same
  refine parallel_updateScopes twin (twin.scopes.declareProblem? here name) fun free => ⟨?_, ?_⟩
  · exact .bind isConst isOpen here holds (binding?_eq_none_of_declareProblem? free)
  · exact twin.scopes.bind here name holds isConst

theorem parallel_declareAll {scope : ScopeId} (isOpen : T.isOpen scope) (names : List Name)
    (values : List Value) (here : T.Holds m.scopes scope)
    (holds : ∀ value ∈ values, T.HoldsValue m.scopes value) (twin : m.Twin ρ T m') :
    Parallel ρ T (declareAll scope (names.zip values))
      (declareAll (ρ scope) (names.zip (values.map (Value.renumber ρ)))) m m' := by
  induction names generalizing values m m' with
  | nil => exact parallel_pure twin trivial
  | cons name names ih =>
    cases values with
    | nil => exact parallel_pure twin trivial
    | cons value values =>
      have first : SameValue ρ T m.scopes value (value.renumber ρ) := ⟨rfl, holds value (by simp)⟩
      refine (parallel_declare twin here isOpen name first false).bind ?_
      intro _ _ m₁ m₁' grown twin₁ _
      refine ih values (here.mono grown) ?_ twin₁
      intro other hother
      exact (holds other (by simp [hother])).mono grown

theorem parallel_declareFunction (twin : m.Twin ρ T m') {scope : ScopeId}
    (here : T.Holds m.scopes scope) (isOpen : T.isOpen scope) (name : Name) {code : Code}
    (gives : T.GivesTree code.body) :
    Parallel ρ T (declareFunction scope name code) (declareFunction (ρ scope) name code) m m' := by
  refine parallel_updateScopes twin (twin.scopes.declareProblem? here name) fun problem => ?_
  have free := binding?_eq_none_of_declareProblem? problem
  exact ⟨.bindFunction isOpen here gives free, twin.scopes.bindFunction here isOpen gives free⟩

theorem parallel_assign (twin : m.Twin ρ T m') {scope : ScopeId} (here : T.Holds m.scopes scope)
    (name : Name) {value value' : Value} (same : SameValue ρ T m.scopes value value') :
    Parallel ρ T (assign scope name value) (assign (ρ scope) name value') m m' := by
  obtain ⟨rfl, holds⟩ := same
  refine parallel_updateScopes twin (twin.scopes.assignProblem? here name) fun assignable => ?_
  exact ⟨.store here holds assignable, twin.scopes.store here holds assignable⟩

/-- The new scope lies in the territory and may get names. -/
theorem parallel_newScope (twin : m.Twin ρ T m') {scope : ScopeId} (here : T.Holds m.scopes scope) :
    Parallel ρ T (newScope scope) (newScope (ρ scope)) m m' fun scopes inner inner' =>
      inner' = ρ inner ∧ T.Holds scopes inner ∧ T.isOpen inner := by
  have settled := twin.scopes.settled
  refine parallel_of_ok (newScope_apply scope m) (newScope_apply (ρ scope) m') (.single (.add here))
    ⟨twin.scopes.add here, twin.objects⟩ ⟨(twin.scopes.next 0).symm, ?_, ?_⟩
  · exact .inr ⟨settled.since, by simp⟩
  · exact settled.fresh _ (Nat.le_refl _)

/-- Logging changes nothing that twins are about, so the events may differ. -/
theorem parallel_emit (twin : m.Twin ρ T m') (settings : Settings) (event event' : Event) :
    Parallel ρ T (emit settings event) (emit settings event') m m' := by
  obtain ⟨log, hlog⟩ := emit_apply settings event m
  obtain ⟨log', hlog'⟩ := emit_apply settings event' m'
  exact parallel_of_ok hlog hlog' .refl ⟨twin.scopes, twin.objects⟩ trivial

theorem parallel_emit? (twin : m.Twin ρ T m') (settings : Settings) (level : Nat)
    (event : Option Event) :
    Parallel ρ T (emit? settings level event) (emit? settings level event) m m' := by
  cases event with
  | some event => exact parallel_emit twin settings event event
  | none =>
    change Parallel ρ T (if level ≤ settings.logLevel then throw .wrongShape else pure ())
      (if level ≤ settings.logLevel then throw .wrongShape else pure ()) m m'
    split
    · exact parallel_throw twin _
    · exact parallel_pure twin trivial

/-! ## Properties -/

theorem parallel_handleTarget (twin : m.Twin ρ T m') {scope : ScopeId}
    (here : T.Holds m.scopes scope) (name : Name) :
    Parallel ρ T (handleTarget scope name) (handleTarget (ρ scope) name) m m'
      fun _ target target' => target' = target := by
  refine (parallel_lookup twin here name).bind ?_
  rintro value _ m₁ m₁' - twin₁ ⟨rfl, -⟩
  cases value with
  | handle target copy => exact parallel_pure twin₁ rfl
  | _ => exact parallel_throw twin₁ _

theorem parallel_readPath (twin : m.Twin ρ T m') (settings : Settings) {scope : ScopeId}
    (here : T.Holds m.scopes scope) (name : Name) (properties : Datum) :
    Parallel ρ T (readPath settings scope name properties)
      (readPath settings (ρ scope) name properties) m m' (SameValue ρ T) := by
  refine (parallel_handleTarget twin here name).bind ?_
  rintro target _ m₁ m₁' - twin₁ rfl
  split
  · refine parallel_get ?_
    rw [twin₁.objects]
    refine (parallel_ofExcept (Q := fun _ a a' => a' = a) twin₁ _ fun _ _ => rfl).bind ?_
    rintro value _ m₂ m₂' - twin₂ rfl
    refine (parallel_emit? twin₂ settings _ _).bind ?_
    intro _ _ m₃ m₃' _ twin₃ _
    exact parallel_ofExcept twin₃ _ fun _ h => sameValue_of_home? (Value.home?_ofHost h)
  · exact parallel_throw twin₁ _

theorem parallel_assignPath (twin : m.Twin ρ T m') (settings : Settings) {scope : ScopeId}
    (here : T.Holds m.scopes scope) (name property : String) (rest : List String)
    (value : Value) :
    Parallel ρ T (assignPath settings scope name property rest value)
      (assignPath settings (ρ scope) name property rest (value.renumber ρ)) m m' := by
  refine (parallel_handleTarget twin here (.text name)).bind ?_
  rintro _ target m₁ m₁' - twin₁ rfl
  refine parallel_get ?_
  rw [twin₁.objects, Settings.writePath_renumber]
  generalize settings.writePath m₁.objects name (Node.path name (property :: rest)) value target
    property rest = written
  cases written with
  | error error => exact parallel_throw twin₁ error
  | ok objects =>
    have set : Parallel ρ T (EStateM.set { m₁ with objects := objects })
        (EStateM.set { m₁' with objects := objects }) m₁ m₁' :=
      parallel_of_ok rfl rfl .refl ⟨twin₁.scopes, rfl⟩ trivial
    simp only [ofExcept, pure_bind]
    refine set.bind ?_
    intro _ _ m₂ m₂' _ twin₂ _
    exact parallel_emit twin₂ settings _ _

/-! ## Expressions -/

/-- Functions of the territory are called alike. -/
def CallerParallel (ρ : ScopeId → ScopeId) (T : Territory) (call : Caller) : Prop :=
  ∀ ⦃m m' : Machine⦄ ⦃home : ScopeId⦄ ⦃name : Name⦄ ⦃code : Code⦄ ⦃arguments : List Value⦄,
    m.Twin ρ T m' → T.Holds m.scopes home → T.GivesTree code.body →
    (∀ value ∈ arguments, T.HoldsValue m.scopes value) →
    Parallel ρ T (call home name code arguments)
      (call (ρ home) name code (arguments.map (Value.renumber ρ))) m m' (SameValue ρ T)

theorem parallel_applyFunction {call : Caller} (calls : CallerParallel ρ T call) {scope : ScopeId}
    (name : Name) (count? : Option Nat) {arguments arguments' : Eval (List Value)}
    (here : T.Holds m.scopes scope) (twin : m.Twin ρ T m')
    (harguments : ∀ ⦃m₁ m₁' : Machine⦄, m.scopes.cells.size ≤ m₁.scopes.cells.size →
      m₁.Twin ρ T m₁' → Parallel ρ T arguments arguments' m₁ m₁' (SameValues ρ T)) :
    Parallel ρ T (applyFunction call scope name count? arguments)
      (applyFunction call (ρ scope) name count? arguments') m m' (SameValue ρ T) := by
  refine (parallel_lookup twin here name).bind ?_
  rintro value _ m₁ m₁' grown twin₁ ⟨rfl, holds⟩
  cases value with
  | function home declared =>
    have there := holds home rfl
    refine parallel_get ?_
    dsimp only [Value.renumber]
    rw [twin₁.scopes.code there]
    split
    · split
      · refine (harguments grown twin₁).bind ?_
        rintro values _ m₂ m₂' grown₂ twin₂ ⟨rfl, allHold⟩
        exact calls twin₂ (there.mono grown₂) (twin₁.scopes.settled.code there declared) allHold
      · exact parallel_throw twin₁ _
    · exact parallel_throw twin₁ _
  | _ => exact parallel_throw twin₁ _

theorem parallel_evaluateData {call : Caller} (calls : CallerParallel ρ T call) {scope : ScopeId}
    (datum : Datum) (here : T.Holds m.scopes scope) (twin : m.Twin ρ T m') :
    Parallel ρ T (evaluateData call scope datum) (evaluateData call (ρ scope) datum) m m'
      (SameValue ρ T) := by
  unfold evaluateData
  split
  · refine parallel_applyFunction calls _ _ here twin ?_
    intro m₁ m₁' _ twin₁
    unfold refuseArguments
    split
    · exact parallel_pure twin₁ ⟨rfl, by simp⟩
    · exact parallel_throw twin₁ _
  · exact parallel_throw twin _

section Trees

variable {settings : Settings} {call : Caller}

theorem parallel_applyBinary (twin : m.Twin ρ T m') (op : BinaryOp) {a b : Value}
    (ha : T.HoldsValue m.scopes a) (hb : T.HoldsValue m.scopes b) :
    Parallel ρ T (ofExcept (op.apply settings.context (settings.host m) a b))
      (ofExcept (op.apply settings.context (settings.host m') (a.renumber ρ) (b.renumber ρ))) m m'
      (SameValue ρ T) := by
  have sameHost : settings.host m' = settings.host m := by rw [Settings.host, twin.objects]; rfl
  -- Functions of the territory are equal if and only if they are under their other numbers.
  have apart : ∀ home home', a.home? = some home → b.home? = some home' → ρ home = ρ home' →
      home = home' := fun home home' hhome hhome' =>
    twin.scopes.apart home home' ((ha home hhome).imp_right And.left)
      ((hb home' hhome').imp_right And.left)
  rw [sameHost, BinaryOp.apply_renumber _ _ _ apart]
  cases h : op.apply settings.context (settings.host m) a b with
  | error error => exact parallel_throw twin error
  | ok result =>
    refine parallel_pure twin ⟨rfl, ?_⟩
    rcases BinaryOp.apply_cases h with rfl | rfl | none
    · exact ha
    · exact hb
    · exact Territory.holdsValue_of_home?_eq_none none

mutual

theorem parallel_evaluate (calls : CallerParallel ρ T call) (node : Node) {scope : ScopeId}
    {m m' : Machine} (here : T.Holds m.scopes scope) (gives : T.GivesTree node)
    (twin : m.Twin ρ T m') :
    Parallel ρ T (evaluate settings call scope node) (evaluate settings call (ρ scope) node) m m'
      (SameValue ρ T) := by
  cases node with
  | literal value =>
    have given := Node.everyLiteral_literal.mp gives
    rw [evaluate, evaluate]
    exact parallel_pure twin ⟨(twin.scopes.renumber_given given).symm, given.holds⟩
  | identifier name properties =>
    rw [evaluate, evaluate]
    split
    · exact parallel_lookup twin here name
    · exact parallel_readPath twin settings here name properties
  | call name arguments =>
    rw [evaluate, evaluate]
    refine parallel_applyFunction calls name _ here twin ?_
    intro m₁ m₁' grown twin₁
    exact parallel_evaluateArguments calls arguments name 1 (here.mono grown) gives twin₁
  | unary op operand =>
    rw [evaluate, evaluate]
    refine (parallel_evaluate calls operand here gives twin).bind ?_
    intro value value' m₁ m₁' _ twin₁ same
    refine (parallel_demand twin₁ _ same).bind ?_
    rintro value _ m₂ m₂' - twin₂ ⟨rfl, -⟩
    rw [UnaryOp.apply_renumber]
    exact parallel_ofExcept twin₂ _ fun _ h => sameValue_of_home? (UnaryOp.home?_apply h)
  | binary op left right =>
    obtain ⟨givesLeft, givesRight⟩ := Node.everyLiteral_binary.mp gives
    rw [evaluate, evaluate]
    refine (parallel_evaluate calls left here givesLeft twin).bind ?_
    intro a a' m₁ m₁' grown₁ twin₁ sameA
    refine (parallel_demand twin₁ _ sameA).bind ?_
    rintro a _ m₂ m₂' grown₂ twin₂ ⟨rfl, holdsA⟩
    refine (parallel_evaluate calls right (here.mono (Nat.le_trans grown₁ grown₂)) givesRight
      twin₂).bind ?_
    intro b b' m₃ m₃' grown₃ twin₃ sameB
    refine (parallel_demand twin₃ _ sameB).bind ?_
    rintro b _ m₄ m₄' grown₄ twin₄ ⟨rfl, holdsB⟩
    exact parallel_get (parallel_applyBinary twin₄ op
      (holdsA.mono (Nat.le_trans grown₃ grown₄)) holdsB)
  | data datum =>
    rw [evaluate, evaluate]
    exact parallel_evaluateData calls datum here twin
  | _ => exact parallel_throw twin _
termination_by structural node

theorem parallel_evaluateArguments (calls : CallerParallel ρ T call) (nodes : List Node)
    (name : Name) (index : Nat) {scope : ScopeId} {m m' : Machine} (here : T.Holds m.scopes scope)
    (gives : T.GivesTrees nodes) (twin : m.Twin ρ T m') :
    Parallel ρ T (evaluateArguments settings call scope name index nodes)
      (evaluateArguments settings call (ρ scope) name index nodes) m m' (SameValues ρ T) := by
  cases nodes with
  | nil => exact parallel_pure twin ⟨rfl, by simp⟩
  | cons node rest =>
    obtain ⟨givesFirst, givesRest⟩ := Node.everyLiteralIn_cons.mp gives
    rw [evaluateArguments, evaluateArguments]
    refine (parallel_evaluate calls node here givesFirst twin).bind ?_
    intro value value' m₁ m₁' grown₁ twin₁ same
    refine (parallel_demand twin₁ _ same).bind ?_
    rintro value _ m₂ m₂' grown₂ twin₂ ⟨rfl, holdsValue⟩
    refine (parallel_evaluateArguments calls rest name (index + 1)
      (here.mono (Nat.le_trans grown₁ grown₂)) givesRest twin₂).bind ?_
    rintro values _ m₃ m₃' grown₃ twin₃ ⟨rfl, holdValues⟩
    refine parallel_pure twin₃ ⟨rfl, ?_⟩
    intro other hother
    rcases List.mem_cons.mp hother with rfl | hother
    · exact holdsValue.mono grown₃
    · exact holdValues other hother
termination_by structural nodes

end

theorem parallel_evaluateValue (calls : CallerParallel ρ T call) (node : Node) {scope : ScopeId}
    (description : String) (here : T.Holds m.scopes scope) (gives : T.GivesTree node)
    (twin : m.Twin ρ T m') :
    Parallel ρ T (evaluateValue settings call scope description node)
      (evaluateValue settings call (ρ scope) description node) m m' (SameValue ρ T) := by
  refine (parallel_evaluate calls node here gives twin).bind ?_
  intro value value' m₁ m₁' _ twin₁ same
  exact parallel_demand twin₁ description same

/-! ## Statements -/

theorem parallel_executeDeclaration (calls : CallerParallel ρ T call) {scope : ScopeId}
    (isConst : Bool) (name : Name) {initial : Node} (here : T.Holds m.scopes scope)
    (isOpen : T.isOpen scope) (gives : T.GivesTree initial) (twin : m.Twin ρ T m') :
    Parallel ρ T (executeDeclaration settings call scope isConst name initial)
      (executeDeclaration settings call (ρ scope) isConst name initial) m m'
      (SameCompletion ρ T) := by
  refine (parallel_evaluateValue calls initial _ here gives twin).bind ?_
  intro value value' m₁ m₁' grown₁ twin₁ same
  refine (parallel_declare twin₁ (here.mono grown₁) isOpen name same isConst).bind ?_
  intro _ _ m₂ m₂' _ twin₂ _
  refine (parallel_emit twin₂ settings _ _).bind ?_
  intro _ _ m₃ m₃' _ twin₃ _
  exact parallel_pure twin₃ (sameCompletion_normal _)

theorem parallel_executeRoute (calls : CallerParallel ρ T call) {scope : ScopeId} (name : String)
    (properties : List String) {value : Node} (here : T.Holds m.scopes scope)
    (gives : T.GivesTree value) (twin : m.Twin ρ T m') :
    Parallel ρ T (executeRoute settings call scope name properties value)
      (executeRoute settings call (ρ scope) name properties value) m m' (SameCompletion ρ T) := by
  refine (parallel_evaluateValue calls value _ here gives twin).bind ?_
  intro value value' m₁ m₁' grown₁ twin₁ same
  have here₁ := here.mono grown₁
  cases properties with
  | nil =>
    refine (parallel_assign twin₁ here₁ (.text name) same).bind ?_
    intro _ _ m₂ m₂' _ twin₂ _
    refine (parallel_emit twin₂ settings _ _).bind ?_
    intro _ _ m₃ m₃' _ twin₃ _
    exact parallel_pure twin₃ (sameCompletion_normal _)
  | cons property rest =>
    obtain ⟨rfl, -⟩ := same
    refine (parallel_assignPath twin₁ settings here₁ name property rest value).bind ?_
    intro _ _ m₂ m₂' _ twin₂ _
    refine (parallel_emit twin₂ settings _ _).bind ?_
    intro _ _ m₃ m₃' _ twin₃ _
    exact parallel_pure twin₃ (sameCompletion_normal _)

theorem parallel_executeAssignment (calls : CallerParallel ρ T call) {scope : ScopeId}
    (target : Node) {value : Node} (here : T.Holds m.scopes scope) (gives : T.GivesTree value)
    (twin : m.Twin ρ T m') :
    Parallel ρ T (executeAssignment settings call scope target value)
      (executeAssignment settings call (ρ scope) target value) m m' (SameCompletion ρ T) := by
  cases target with
  | identifier name properties =>
    unfold executeAssignment
    dsimp only
    split
    · exact parallel_executeRoute calls _ _ here gives twin
    · exact parallel_throw twin _
  | _ => exact parallel_throw twin _

theorem parallel_executeFunction {scope : ScopeId} (name : Name) (params : Datum) {body : Node}
    (here : T.Holds m.scopes scope) (isOpen : T.isOpen scope) (gives : T.GivesTree body)
    (twin : m.Twin ρ T m') :
    Parallel ρ T (executeFunction settings scope name params body)
      (executeFunction settings (ρ scope) name params body) m m' (SameCompletion ρ T) := by
  refine (parallel_declareFunction twin here isOpen name gives).bind ?_
  intro _ _ m₁ m₁' _ twin₁ _
  refine (parallel_emit? twin₁ settings _ _).bind ?_
  intro _ _ m₂ m₂' _ twin₂ _
  exact parallel_pure twin₂ (sameCompletion_normal _)

theorem parallel_executeNone (field : Datum) (twin : m.Twin ρ T m') :
    Parallel ρ T (executeNone field) (executeNone field) m m' (SameCompletion ρ T) := by
  unfold executeNone
  split
  · exact parallel_pure twin (sameCompletion_normal _)
  · exact parallel_throw twin _
  · exact parallel_throw twin _

theorem parallel_executeData (datum : Datum) (twin : m.Twin ρ T m') :
    Parallel ρ T (executeData datum) (executeData datum) m m' (SameCompletion ρ T) := by
  unfold executeData
  split
  · exact parallel_executeNone _ twin
  · exact parallel_throw twin _

mutual

theorem parallel_execute (calls : CallerParallel ρ T call) (node : Node) {scope : ScopeId}
    {m m' : Machine} (here : T.Holds m.scopes scope) (isOpen : T.isOpen scope)
    (gives : T.GivesTree node) (twin : m.Twin ρ T m') :
    Parallel ρ T (execute settings call scope node) (execute settings call (ρ scope) node) m m'
      (SameCompletion ρ T) := by
  cases node with
  | block statements =>
    rw [execute, execute]
    exact parallel_executeAll calls statements here isOpen gives twin
  | declaration isConst name initial =>
    rw [execute, execute]
    exact parallel_executeDeclaration calls isConst name here isOpen gives twin
  | assignment target value =>
    rw [execute, execute]
    exact parallel_executeAssignment calls target here (Node.everyLiteral_assignment.mp gives).2
      twin
  | function name params body =>
    rw [execute, execute]
    exact parallel_executeFunction name params here isOpen gives twin
  | giveBack value =>
    by_cases habsent : value = .absent
    · subst habsent
      exact parallel_pure twin ⟨rfl, by simp⟩
    · rw [execute_giveBack habsent, execute_giveBack habsent]
      refine (parallel_evaluateValue calls value _ here gives twin).bind ?_
      rintro value _ m₁ m₁' - twin₁ ⟨rfl, holds⟩
      exact parallel_pure twin₁ ⟨rfl, by rintro _ ⟨rfl⟩; exact holds⟩
  | callStatement inner =>
    rw [execute, execute]
    refine (parallel_evaluate calls inner here gives twin).bind ?_
    intro _ _ m₁ m₁' _ twin₁ _
    exact parallel_pure twin₁ (sameCompletion_normal _)
  | choice condition thenBlock elseBlock =>
    obtain ⟨givesCondition, givesThen, givesElse⟩ := Node.everyLiteral_choice.mp gives
    rw [execute, execute]
    refine (parallel_evaluateValue calls condition _ here givesCondition twin).bind ?_
    rintro value _ m₁ m₁' grown₁ twin₁ ⟨rfl, -⟩
    rw [Value.isTruthy_renumber]
    refine (parallel_ofExcept (Q := fun _ a a' => a' = a) twin₁ _ fun _ _ => rfl).bind ?_
    rintro truth _ m₂ m₂' grown₂ twin₂ rfl
    refine (parallel_emit twin₂ settings _ _).bind ?_
    intro _ _ m₃ m₃' grown₃ twin₃ _
    have there := here.mono (Nat.le_trans grown₁ (Nat.le_trans grown₂ grown₃))
    split
    · exact parallel_executeBranch calls thenBlock there givesThen twin₃
    · exact parallel_executeBranch calls elseBlock there givesElse twin₃
  | data datum =>
    rw [execute, execute]
    exact parallel_executeData datum twin
  | _ => exact parallel_throw twin _
termination_by structural node

theorem parallel_executeBranch (calls : CallerParallel ρ T call) (node : Node) {scope : ScopeId}
    {m m' : Machine} (here : T.Holds m.scopes scope) (gives : T.GivesTree node)
    (twin : m.Twin ρ T m') :
    Parallel ρ T (executeBranch settings call scope node)
      (executeBranch settings call (ρ scope) node) m m' (SameCompletion ρ T) := by
  cases node with
  | absent => exact parallel_pure twin (sameCompletion_normal _)
  | block statements =>
    rw [executeBranch, executeBranch]
    refine (parallel_newScope twin here).bind ?_
    rintro inner _ m₁ m₁' - twin₁ ⟨rfl, there, isOpen⟩
    exact parallel_executeAll calls statements there isOpen gives twin₁
  | data datum =>
    unfold executeBranch
    split
    · rename_i h
      cases h
    · rename_i h
      cases h
    · exact parallel_executeNone _ twin
    · exact parallel_throw twin _
  | _ => exact parallel_throw twin _
termination_by structural node

theorem parallel_executeAll (calls : CallerParallel ρ T call) (nodes : List Node) {scope : ScopeId}
    {m m' : Machine} (here : T.Holds m.scopes scope) (isOpen : T.isOpen scope)
    (gives : T.GivesTrees nodes) (twin : m.Twin ρ T m') :
    Parallel ρ T (executeAll settings call scope nodes) (executeAll settings call (ρ scope) nodes)
      m m' (SameCompletion ρ T) := by
  cases nodes with
  | nil => exact parallel_pure twin (sameCompletion_normal _)
  | cons node rest =>
    obtain ⟨givesFirst, givesRest⟩ := Node.everyLiteralIn_cons.mp gives
    rw [executeAll, executeAll]
    refine (parallel_execute calls node here isOpen givesFirst twin).bind ?_
    rintro completion _ m₁ m₁' grown₁ twin₁ ⟨rfl, holds⟩
    cases completion with
    | normal => exact parallel_executeAll calls rest (here.mono grown₁) isOpen givesRest twin₁
    | returned value => exact parallel_pure twin₁ ⟨rfl, holds⟩
termination_by structural nodes

end

theorem parallel_executeBody (calls : CallerParallel ρ T call) (node : Node) {scope : ScopeId}
    (here : T.Holds m.scopes scope) (isOpen : T.isOpen scope) (gives : T.GivesTree node)
    (twin : m.Twin ρ T m') :
    Parallel ρ T (executeBody settings call scope node) (executeBody settings call (ρ scope) node)
      m m' (SameCompletion ρ T) := by
  cases node with
  | block statements => exact parallel_executeAll calls statements here isOpen gives twin
  | data datum =>
    unfold executeBody
    split
    · rename_i h
      cases h
    · exact parallel_executeNone _ twin
    · exact parallel_throw twin _
  | _ => exact parallel_throw twin _

end Trees

/-! ## Calls -/

/-- A call is entered in a new scope, which may get names. -/
theorem parallel_enter (settings : Settings) {home : ScopeId} (name : Name) (code : Code)
    {arguments : List Value} (here : T.Holds m.scopes home)
    (holds : ∀ value ∈ arguments, T.HoldsValue m.scopes value) (twin : m.Twin ρ T m') :
    Parallel ρ T (enter settings home name code arguments)
      (enter settings (ρ home) name code (arguments.map (Value.renumber ρ))) m m'
      fun scopes inner inner' => inner' = ρ inner ∧ T.Holds scopes inner ∧ T.isOpen inner := by
  refine (parallel_newScope twin here).bind ?_
  rintro scope _ m₁ m₁' grown₁ twin₁ ⟨rfl, there, isOpen⟩
  refine (parallel_declareAll isOpen code.parameters arguments there
    (fun value hvalue => (holds value hvalue).mono grown₁) twin₁).bind ?_
  intro _ _ m₂ m₂' grown₂ twin₂ _
  refine (parallel_emit twin₂ settings _ _).bind ?_
  intro _ _ m₃ m₃' grown₃ twin₃ _
  exact parallel_pure twin₃ ⟨rfl, there.mono (Nat.le_trans grown₂ grown₃), isOpen⟩

theorem SameCompletion.callValue {scopes : Scopes} {completion completion' : Completion}
    (same : SameCompletion ρ T scopes completion completion') :
    SameValue ρ T scopes (callValue completion) (callValue completion') := by
  obtain ⟨rfl, holds⟩ := same
  cases completion with
  | normal => exact sameValue_of_home? rfl
  | returned value =>
    cases value with
    | none => exact sameValue_of_home? rfl
    | some value => exact ⟨rfl, holds value rfl⟩

/-- However deep calls may be nested, functions of the territory are called alike. -/
theorem callerParallel_callAt (ρ : ScopeId → ScopeId) (T : Territory) (settings : Settings)
    (depth : Nat) : CallerParallel ρ T (callAt settings depth) := by
  induction depth with
  | zero =>
    intro m m' home name code arguments twin _ _ _
    exact parallel_throw twin _
  | succ depth ih =>
    intro m m' home name code arguments twin here gives holds
    rw [callAt_succ, callAt_succ]
    refine (parallel_enter settings name code here holds twin).bind ?_
    rintro scope _ m₁ m₁' - twin₁ ⟨rfl, there, isOpen⟩
    refine (parallel_executeBody ih code.body there isOpen gives twin₁).bind ?_
    intro completion completion' m₂ m₂' _ twin₂ same
    exact parallel_pure twin₂ same.callValue

end Eval

end ScopeScript
