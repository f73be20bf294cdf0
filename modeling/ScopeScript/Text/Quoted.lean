set_option autoImplicit false

/-!
# Text: the quoted form of script strings

A script writes a string between double quotes, and a double quote inside it is written twice.
-/

namespace ScopeScript.Text

/-- The characters of a string with every double quote written twice. -/
def doubleQuotes : List Char → List Char
  | [] => []
  | c :: rest => if c = '"' then '"' :: '"' :: doubleQuotes rest else c :: doubleQuotes rest

/-- The text that a script writes for a string. -/
def quote (text : String) : String :=
  String.ofList ('"' :: (doubleQuotes text.toList ++ ['"']))

@[simp] theorem toList_quote (text : String) :
    (quote text).toList = '"' :: (doubleQuotes text.toList ++ ['"']) := by
  simp [quote]

end ScopeScript.Text
