import Certified.Principal
import Certified.Report.Leaves

/-!
The report of a successful verification.
-/

namespace Certified

structure VerificationReport where
  canister : Principal
  /-- The certificate's time in nanoseconds since 1970. -/
  time : UInt64
  /-- The root of the witness, which is the canister's certified data. -/
  data : Digest
  /-- The subnet that signed, if it was not the root key. -/
  subnetId : Option Bytes
  signatureChecked : Bool
  /-- The key under which a payload was checked. -/
  responseKey : Option Label
  leaves : List ListedLeaf
deriving DecidableEq

namespace VerificationReport

/-- The lines before the leaves. -/
def headLines (r : VerificationReport) : List String :=
  ["Certificate verified successfully",
    "Canister:       " ++ r.canister.toText,
    "Time:           " ++ timeText r.time,
    "Certified data: " ++ r.data.toHex] ++
  (r.subnetId.map fun id => "Delegated to:   subnet " ++ Hex.encode id).toList ++
  (if r.signatureChecked then [] else ["Signature:      NOT CHECKED"]) ++
  (r.responseKey.map fun key => "Response:       payload matches key " ++ key.toText).toList ++
  ["Witness leaves: " ++ toString r.leaves.length]

def text (r : VerificationReport) : String :=
  joinLines (r.headLines ++ r.leaves.map ListedLeaf.line)

def toJson (r : VerificationReport) : Json :=
  .ofFields [
    ("canister_id", some (.ofText r.canister.toText)),
    ("certificate_time_ns", some (.ofTime r.time)),
    ("certificate_time", some (.ofText (timeText r.time))),
    ("certified_data", some (.ofText r.data.toHex)),
    ("subnet_id", r.subnetId.map fun id => .ofText (Hex.encode id)),
    ("signature_checked", some (.bool r.signatureChecked)),
    ("response_key", r.responseKey.map fun key => .ofText key.toText),
    ("witness_paths", some (.array (r.leaves.map ListedLeaf.toJson)))]

end VerificationReport
end Certified
