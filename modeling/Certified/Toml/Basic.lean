/-!
TOML values, and the statements that a document is made of.
-/

namespace Certified.Toml

/-- A TOML value. Of a float and of a date or time only the kind is kept. -/
inductive Value where
  | string (text : String)
  | integer (value : Int)
  | float
  | boolean (value : Bool)
  | dateTime
  | array (items : List Value)
  | table (entries : List (String × Value))

/-- The parts of a dotted key. -/
abbrev KeyPath := List String

/-- A line of a document that says something. -/
inductive Statement where
  /-- Opens the table at a path. -/
  | table (path : KeyPath)
  /-- Opens a new element of the array of tables at a path. -/
  | element (path : KeyPath)
  | assign (path : KeyPath) (value : Value)

end Certified.Toml
