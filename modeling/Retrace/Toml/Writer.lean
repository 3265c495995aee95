import Retrace.Json.Writer

/-!
# Writing TOML

A table is written as a section: its header, then its values, one on each line.
The sections of the tables in it follow, a blank line before each. What is null
is left out.
-/

namespace Retrace.Toml

/-- The written form of a value that is not a table. -/
def valueText? : Json → Option String
  | .bool value => some (if value then "true" else "false")
  | .int value => some (toString value)
  | .str value => some (Json.quote value)
  | _ => none

/-- The lines of the values in a table. -/
def valueLines (fields : List (String × Json)) : List String :=
  fields.filterMap fun (name, value) =>
    (valueText? value).map fun text => name ++ " = " ++ text ++ "\n"

/-- The section of a table without the tables in it. There is none if the table
has no values. -/
def ownSection (key : List String) (fields : List (String × Json)) : List String :=
  let lines := valueLines fields
  if lines.isEmpty then []
  else if key.isEmpty then [String.join lines]
  else ["[" ++ String.intercalate "." key ++ "]\n" ++ String.join lines]

mutual

/-- The sections of a table. -/
def sections (key : List String) : Json → List String
  | .obj fields => ownSection key fields ++ innerSections key fields
  | _ => []

/-- The sections of the tables among some fields. -/
def innerSections (key : List String) : List (String × Json) → List String
  | [] => []
  | (name, value) :: rest => sections (key ++ [name]) value ++ innerSections key rest

end

/-- The written form of a document. -/
def render (document : Json) : String := String.intercalate "\n" (sections [] document)

end Retrace.Toml
