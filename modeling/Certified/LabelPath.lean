import Certified.Hex
import Certified.HashTree.Basic
import Certified.Principal
import Certified.Text.Slashed

/-!
Labels and paths of labels as text. A label is its own text where that is printable; `hex:` marks
bytes in hexadecimal and `principal:` a principal. Slashes separate the labels of a path.
-/

namespace Certified

inductive LabelError where
  | notHex (text : String) (cause : Hex.DecodeError)
  | notPrincipal (cause : PrincipalError)
deriving DecidableEq, Repr

def LabelError.message : LabelError → String
  | .notHex text cause =>
    "Invalid input: bad hex segment " ++ Text.Quoted.text text ++ ": " ++ cause.message
  | .notPrincipal cause => "Decode error: " ++ cause.message

def LabelError.causes : LabelError → List String
  | .notHex _ _ => []
  | .notPrincipal cause => [cause.message]

namespace Label

def hexMark : List Char := "hex:".toList

def principalMark : List Char := "principal:".toList

/-- The label that a text stands for. -/
def ofChars (chars : List Char) : Except LabelError Label :=
  match hexMark.isPrefixOf? chars with
  | some digits =>
    (Hex.decode (String.ofList digits)).mapError (.notHex (String.ofList chars))
  | none =>
    match principalMark.isPrefixOf? chars with
    | some text =>
      ((Principal.ofText (String.ofList text)).map Principal.bytes).mapError .notPrincipal
    | none => .ok (Bytes.ofText (String.ofList chars))

def ofText (text : String) : Except LabelError Label :=
  ofChars text.toList

/-- A printable ASCII character that is neither a blank nor a slash. -/
def isPlain (b : UInt8) : Bool :=
  0x21 ≤ b ∧ b ≤ 0x7e ∧ b ≠ 0x2f

/-- The characters of a label: its bytes if they print and are not taken for a mark, and hexadecimal
digits otherwise. -/
def toChars (label : Label) : List Char :=
  let chars := label.map fun b => Char.ofNat b.toNat
  if !label.isEmpty && label.all isPlain && !hexMark.isPrefixOf chars &&
      !principalMark.isPrefixOf chars then chars
  else hexMark ++ Hex.digits label

def toText (label : Label) : String :=
  String.ofList label.toChars

end Label

namespace LabelPath

/-- The path that a text stands for; the empty text is the empty path. -/
def ofText (text : String) : Except LabelError (List Label) :=
  if text.toList = [] then .ok [] else (Text.Slashed.segments text.toList).mapM Label.ofChars

def toText (path : List Label) : String :=
  String.ofList (List.intercalate ['/'] (path.map Label.toChars))

end LabelPath
end Certified
