/-! The one-line text of a record: its name and its fields between braces. -/

namespace Hopline.Text

structure Field where
  name : String
  value : String

def Field.render (field : Field) : String := field.name ++ ": " ++ field.value

/-- The text of a record. An `open` record has fields it does not show and says
so with two dots; a record that shows no field has no colon at all. -/
def record (name : String) (fields : List Field) (isOpen : Bool) : String :=
  let shown := fields.map Field.render ++ (if isOpen then [".."] else [])
  name ++ " \x7b " ++ String.intercalate ", " shown ++ " \x7d"

def sequence (values : List String) : String := "[" ++ String.intercalate ", " values ++ "]"

def optional : Option String → String
  | none => "None"
  | some value => "Some(" ++ value ++ ")"

def truth (value : Bool) : String := if value then "true" else "false"

end Hopline.Text
