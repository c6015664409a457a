import Certified.DecodeError
import Certified.Principal

/-!
State certificates: a tree, a signature over its root and, where another key than the root key
signed, the delegation to that key.
-/

namespace Certified

/-- The authorization of a subnet's key, itself an encoded certificate. -/
structure Delegation where
  subnetId : Bytes
  certificate : Bytes
deriving DecidableEq

structure Certificate where
  tree : HashTree
  signature : Bytes
  delegation : Option Delegation
deriving DecidableEq

namespace Certificate

def timePath : List Label :=
  [Bytes.ofText "time"]

def dataPath (canister : Principal) : List Label :=
  [Bytes.ofText "canister", canister.bytes, Bytes.ofText "certified_data"]

/-- The certificate's time in nanoseconds since 1970. -/
def time (c : Certificate) : Except DecodeError UInt64 :=
  match c.tree.lookup timePath with
  | .found value => (Leb128.read value).mapError fun cause => .certificate (.timeNotNumber cause)
  | answer => .error (.certificate (.noTime answer))

/-- What the certificate says about the data of a canister. -/
def certifiedData (c : Certificate) (canister : Principal) : Answer :=
  c.tree.lookup (dataPath canister)

end Certificate
end Certified
