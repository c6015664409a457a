import Certified.Json.Parser
import Certified.Principal
import Certified.Timestamp
import Certified.Verification.Response

/-!
Values of this library as JSON. A record is an object with its fields, or an array with the values of
its fields in order.
-/

namespace Certified

/-- The values of the fields of a record. In an object each of them occurs once, among fields that do
not matter. -/
def Json.record? (names : List String) : Json → Option (List Json)
  | .object fields =>
    if fields.all (·.1.isSome) then names.mapM fun name => Json.onlyField? name fields else none
  | .array items => if items.length = names.length then some items else none
  | _ => none

def Digest.ofJson? (value : Json) : Option Digest := do
  (Digest.ofHex (← value.text?)).toOption

def Principal.ofJson? (value : Json) : Option Principal := do
  (Principal.ofText (← value.text?)).toOption

def Timestamp.ofJson? (value : Json) : Option Timestamp := do
  match ← value.record? ["seconds", "nanos"] with
  | [.integer seconds, .integer nanos] =>
    if Int64.minValue.toInt ≤ seconds ∧ seconds ≤ Int64.maxValue.toInt ∧
        0 ≤ nanos ∧ nanos < UInt32.size then
      some ⟨Int64.ofInt seconds, UInt32.ofNat nanos.toNat⟩
    else none
  | _ => none

namespace CertifiedResponse

def ofJson? (value : Json) : Option CertifiedResponse := do
  match ← value.record? ["response", "certificate", "witness"] with
  | [response, certificate, witness] =>
    some {
      response := ← response.text?
      certificate := ← (Hex.decode (← certificate.text?)).toOption
      witness := ← (Hex.decode (← witness.text?)).toOption }
  | _ => none

def ofText? (text : String) : Option CertifiedResponse :=
  (Json.parse? text).bind ofJson?

def toJson (r : CertifiedResponse) : Json :=
  .object [
    (some "response", .ofText r.response),
    (some "certificate", .ofText (Hex.encode r.certificate)),
    (some "witness", .ofText (Hex.encode r.witness))]

end CertifiedResponse
end Certified
