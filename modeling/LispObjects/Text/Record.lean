namespace LispObjects.Text

/-!
# Records and lists as text

The shapes in which descriptions show a structure and a sequence: `Name { field: text, … }` and
`[text, …]`.
-/

/-- Texts in square brackets, with a comma and a space between two of them. -/
def bracketed (items : List String) : String :=
  "[" ++ ", ".intercalate items ++ "]"

/-- A record's name, and between braces its fields, each as `name: text`. -/
def record (name : String) (fields : List (String × String)) : String :=
  name ++ " \x7b " ++ ", ".intercalate (fields.map fun f => f.1 ++ ": " ++ f.2) ++ " \x7d"

end LispObjects.Text
