/-!
JSON values.
-/

namespace Certified

/-- A JSON value. A string has no text where it escapes half of a surrogate pair. A number is an
integer unless its literal has a fraction or an exponent, or is `-0`. -/
inductive Json where
  | null
  | bool (value : Bool)
  | integer (value : Int)
  | decimal (literal : String)
  | string (text : Option String)
  | array (items : List Json)
  | object (fields : List (Option String × Json))

namespace Json

def ofText (s : String) : Json :=
  .string (some s)

def text? : Json → Option String
  | .string text => text
  | _ => none

/-- Every field that has the name. -/
def fieldsNamed (name : String) (fields : List (Option String × Json)) : List Json :=
  fields.filterMap fun (key, value) => if key = some name then some value else none

/-- The value of a field that occurs once. -/
def onlyField? (name : String) (fields : List (Option String × Json)) : Option Json :=
  match fieldsNamed name fields with
  | [value] => some value
  | _ => none

end Json
end Certified
