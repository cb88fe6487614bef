import ProtoSchema.Text.Quoted

/-!
# Values as text for inspection

Lists stand in brackets, optional values are wrapped, and records name every entry. An open record
ends with two dots, for what it does not show.
-/

namespace ProtoSchema.Text.Inspect

/-- A list of texts in brackets. -/
def list (items : List String) : String :=
  "[" ++ ", ".intercalate items ++ "]"

/-- A value that may be absent. -/
def optional : Option String → String
  | some s => "Some(" ++ s ++ ")"
  | none => "None"

/-- The entries of a record, each after its name. -/
def entries (es : List (String × String)) : String :=
  ", ".intercalate (es.map fun (name, value) => name ++ ": " ++ value)

/-- A record that shows everything. -/
def record (name : String) (es : List (String × String)) : String :=
  name ++ " \x7b " ++ entries es ++ " \x7d"

/-- A record that does not show everything. -/
def openRecord (name : String) (es : List (String × String)) : String :=
  name ++ " \x7b " ++ entries es ++ ", .. \x7d"

end ProtoSchema.Text.Inspect
