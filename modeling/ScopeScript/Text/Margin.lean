set_option autoImplicit false

/-!
# Text: indentation

Levels are integers.  Below level zero there is no indentation, but levels are still counted there,
so that text further in gets its indentation only from level one on.
-/

namespace ScopeScript.Text

/-- The indentation of a level: two blanks for each level above zero. -/
def margin (level : Int) : String := String.ofList (List.replicate (2 * level.toNat) ' ')

@[simp] theorem toList_margin (level : Int) :
    (margin level).toList = List.replicate (2 * level.toNat) ' ' := by
  simp [margin]

end ScopeScript.Text
