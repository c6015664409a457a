import Certified.HashTree.Basic
import Certified.Json.Printer
import Certified.LabelPath
import Certified.Timestamp

/-!
The leaves of a tree in a report: the path and the value of each as text.
-/

namespace Certified

/-- A leaf as it is listed. -/
structure ListedLeaf where
  path : String
  value : String
deriving DecidableEq

/-- The leaves of a tree from left to right. -/
def HashTree.listing (t : HashTree) : List ListedLeaf :=
  t.paths.map fun (path, value) => { path := LabelPath.toText path, value := Hex.encode value }

namespace ListedLeaf

def line (leaf : ListedLeaf) : String :=
  "  " ++ leaf.path ++ " = " ++ leaf.value

def toJson (leaf : ListedLeaf) : Json :=
  .object [(some "path", .ofText leaf.path), (some "value", .ofText leaf.value)]

end ListedLeaf

/-- Lines with a line feed between each two. -/
def joinLines (lines : List String) : String :=
  "\n".intercalate lines

/-- The fields whose values are there. -/
def Json.ofFields (fields : List (String × Option Json)) : Json :=
  .object (fields.filterMap fun (name, value) => value.map fun v => (some name, v))

def Json.ofTime (nanos : UInt64) : Json :=
  .integer nanos.toNat

def timeText (nanos : UInt64) : String :=
  (Timestamp.ofUnixNanos nanos).text

end Certified
