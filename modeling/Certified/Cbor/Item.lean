import Certified.Bytes

/-!
CBOR data items.
-/

namespace Certified.Cbor

/-- A data item. A floating-point number is kept as its bytes, and the entries of a map in their
order on the wire. -/
inductive Item where
  | null
  | bool (value : Bool)
  | integer (value : Int)
  | float (bytes : Bytes)
  | bytes (value : Bytes)
  | text (value : String)
  | array (items : List Item)
  | map (entries : List (Item × Item))
  | tag (number : Nat) (item : Item)

inductive Kind where
  | null | bool | integer | float | bytes | text | array | map | tag
deriving DecidableEq, Repr

def Kind.name : Kind → String
  | .null => "null"
  | .bool => "bool"
  | .integer => "integer"
  | .float => "float"
  | .bytes => "bytes"
  | .text => "text"
  | .array => "array"
  | .map => "map"
  | .tag => "tag"

namespace Item

def kind : Item → Kind
  | .null => .null
  | .bool _ => .bool
  | .integer _ => .integer
  | .float _ => .float
  | .bytes _ => .bytes
  | .text _ => .text
  | .array _ => .array
  | .map _ => .map
  | .tag _ _ => .tag

/-- The item inside the outermost tags. -/
def untag : Item → Item
  | .tag _ item => item.untag
  | item => item

mutual

/-- The item with the tags removed at every level. -/
def stripTags : Item → Item
  | .tag _ item => item.stripTags
  | .array items => .array (stripTagsAll items)
  | .map entries => .map (stripTagsEntries entries)
  | item => item

def stripTagsAll : List Item → List Item
  | [] => []
  | item :: rest => item.stripTags :: stripTagsAll rest

def stripTagsEntries : List (Item × Item) → List (Item × Item)
  | [] => []
  | (key, value) :: rest => (key.stripTags, value.stripTags) :: stripTagsEntries rest

end

def isText (name : String) : Item → Bool
  | .text value => value = name
  | _ => false

/-- The value under a text key; of several the last. -/
def entry? (name : String) (entries : List (Item × Item)) : Option Item :=
  (entries.reverse.find? fun (key, _) => key.isText name).map (·.2)

end Item
end Certified.Cbor
