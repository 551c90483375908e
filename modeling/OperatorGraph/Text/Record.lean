set_option autoImplicit false

namespace OperatorGraph.Text

/-- A type name with its fields between braces. -/
def record (name : String) (fields : List (String × String)) : String :=
  name ++ " \x7b " ++ ", ".intercalate (fields.map fun (field, value) => field ++ ": " ++ value) ++
    " \x7d"

/-- A type name with some of its fields. -/
def opaqueRecord (name : String) (fields : List (String × String)) : String :=
  name ++ " \x7b " ++ ", ".intercalate (fields.map fun (field, value) => field ++ ": " ++ value) ++
    ", .. \x7d"

/-- A constructor applied to one value. -/
def tagged (name value : String) : String :=
  name ++ "(" ++ value ++ ")"

/-- Values in brackets. -/
def listing (values : List String) : String :=
  "[" ++ ", ".intercalate values ++ "]"

def optional (value : Option String) : String :=
  match value with
  | none => "None"
  | some value => tagged "Some" value

def flag (b : Bool) : String :=
  if b then "true" else "false"

end OperatorGraph.Text
