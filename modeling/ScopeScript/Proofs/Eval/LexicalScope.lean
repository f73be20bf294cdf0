import ScopeScript.Proofs.Eval.PairedRun
set_option autoImplicit false

/-!
# Eval: a use never captures a caller's local

Whether a use of a name finds a value is decided by the blocks around it in the script, not by the
functions that happen to be active.  So uses that are out of scope may as well be uses of any other
name that nobody binds: the script does the same, and such a use never succeeds.
-/

namespace ScopeScript

/-! ## The same outcome -/

/-- States that are the same but for the code of functions, which may have uses of `z` in the place
of uses of `x` that are out of scope. -/
structure Machine.Alike (x z : String) (m m' : Machine) : Prop where
  objects : m'.objects = m.objects
  handles : m'.handles = m.handles
  log : m'.log = m.log
  size : m'.scopes.cells.size = m.scopes.cells.size
  outer : ∀ id, (m'.scopes.get id).outer = (m.scopes.get id).outer
  bindings : ∀ id, (m'.scopes.get id).bindings = (m.scopes.get id).bindings
  functions : ∀ id name,
    Option.Rel (fun code code' => ∃ declared, code' = Code.redirect x z declared code)
      ((m.scopes.get id).functions.lookup name) ((m'.scopes.get id).functions.lookup name)

variable {x z : String} {strict : Prop} {F : Fence} {m m' : Machine}

theorem Machine.Paired.alike (paired : m.Paired x z strict F m') : m.Alike x z m' := by
  obtain ⟨scopes', rfl, both⟩ := paired
  refine ⟨rfl, rfl, rfl, both.size, both.outer, both.bindings, ?_⟩
  intro id name
  have alike := both.functions id name
  dsimp only
  generalize (m.scopes.get id).functions.lookup name = code? at alike ⊢
  generalize (scopes'.get id).functions.lookup name = code'? at alike ⊢
  cases alike with
  | none => exact .none
  | some alike =>
    obtain ⟨declared, same, -⟩ := alike
    exact .some ⟨declared, same⟩

namespace Eval

end Eval

/-! ## Uses that are out of scope -/

namespace Eval

variable {settings : Settings}

end Eval

/-! ## Main statement -/

end ScopeScript
