import Certified.Certificate.Basic
import Certified.Report.Leaves

/-!
What a certificate holds, without any check.
-/

namespace Certified

structure CertificateSummary where
  root : Digest
  /-- The time in nanoseconds since 1970, where it can be read. -/
  time : Option UInt64
  signature : Bytes
  subnetId : Option Bytes
  leaves : List ListedLeaf
deriving DecidableEq

def Certificate.summary (c : Certificate) : CertificateSummary :=
  { root := c.tree.root
    time := c.time.toOption
    signature := c.signature
    subnetId := c.delegation.map (·.subnetId)
    leaves := c.tree.listing }

namespace CertificateSummary

/-- The lines before the leaves. -/
def headLines (s : CertificateSummary) : List String :=
  ["Certificate",
    "===========",
    "Root hash:  " ++ s.root.toHex,
    "Time:       " ++ (s.time.map timeText).getD "missing",
    "Signature:  " ++ Hex.encode s.signature] ++
  (s.subnetId.map fun id => "Delegation: subnet " ++ Hex.encode id).toList ++
  ["Leaves:     " ++ toString s.leaves.length]

def text (s : CertificateSummary) : String :=
  joinLines (s.headLines ++ s.leaves.map ListedLeaf.line)

def toJson (s : CertificateSummary) : Json :=
  .ofFields [
    ("root_hash", some (.ofText s.root.toHex)),
    ("time_ns", s.time.map .ofTime),
    ("time", s.time.map fun nanos => .ofText (timeText nanos)),
    ("signature", some (.ofText (Hex.encode s.signature))),
    ("delegation_subnet_id", s.subnetId.map fun id => .ofText (Hex.encode id)),
    ("paths", some (.array (s.leaves.map ListedLeaf.toJson)))]

end CertificateSummary
end Certified
