import ScopeScript.Datum.Key
import ScopeScript.Tree.Stored
set_option autoImplicit false

/-!
# Tree: when two trees say the same

Two trees agree when they have the same nodes with equal data in their fields; number literals only
have to be equal in value.
-/

namespace ScopeScript.Node

/-- Whether two trees agree. -/
def agrees (a b : Node) : Bool :=
  match a.toDatum, b.toDatum with
  | .ok x, .ok y => x.agrees y
  | _, _ => false

end ScopeScript.Node
