import Certified.Hex
import Certified.Text.Blank
import Certified.Text.Utf8

/-!
Files that hold bytes as they are or as hexadecimal text.
-/

namespace Certified.Blob

/-- Hexadecimal digits, perhaps after `0x` and between blanks, stand for the bytes they spell;
anything else stands for itself. -/
def decode (content : Bytes) : Bytes :=
  match Utf8.decode? content with
  | none => content
  | some text =>
    let chars := Text.Blank.trimChars text.toList
    let digits := (['0', 'x'].isPrefixOf? chars).getD chars
    match Hex.decode (String.ofList digits) with
    | .ok bytes => if digits.isEmpty then content else bytes
    | .error _ => content

end Certified.Blob
