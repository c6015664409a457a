import Certified.DecodeError

/-!
The canister ids that a subnet answers for: ranges with both ends inside.
-/

namespace Certified

open Cbor (Item)

structure CanisterRange where
  first : Bytes
  last : Bytes
deriving DecidableEq

namespace CanisterRange

/-- Ids are compared as byte strings, the first different byte deciding. -/
def contains (r : CanisterRange) (id : Bytes) : Bool :=
  r.first ≤ id ∧ id ≤ r.last

def ofItem (item : Item) : Except CertificateError CanisterRange :=
  match item.untag with
  | .array [.bytes first, .bytes last] => .ok { first, last }
  | .array _ => .error .rangeNotPair
  | other => .error (.rangeNotArray other.kind)

def toItem (r : CanisterRange) : Item :=
  .array [.bytes r.first, .bytes r.last]

def listOfItem (item : Item) : Except CertificateError (List CanisterRange) :=
  match item.untag with
  | .array items => items.mapM ofItem
  | other => .error (.rangesNotArray other.kind)

def decodeAll (bytes : Bytes) : Except DecodeError (List CanisterRange) := do
  (listOfItem (← decodeItem bytes)).mapError .certificate

def encodeAll (ranges : List CanisterRange) : Bytes :=
  Cbor.encode (.array (ranges.map toItem))

end CanisterRange
end Certified
