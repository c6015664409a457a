import Certified.Certificate.Basic

/-!
Certificates as CBOR items: maps with the keys `tree`, `signature` and, if delegated,
`delegation`, which is a map with the keys `subnet_id` and `certificate`.
-/

namespace Certified

open Cbor (Item)

/-- The entries of a map inside any tags. -/
def entriesOf (what : String) (item : Item) : Except CertificateError (List (Item × Item)) :=
  match item.untag with
  | .map entries => .ok entries
  | other => .error (.notMap what other.kind)

/-- The byte string under a key, inside any tags. -/
def bytesUnder (key : String) (entries : List (Item × Item)) : Except CertificateError Bytes :=
  match (Item.entry? key entries).map Item.untag with
  | some (.bytes value) => .ok value
  | some other => .error (.notBytes key other.kind)
  | none => .error (.missing key)

def Delegation.ofItem (item : Item) : Except CertificateError Delegation := do
  let entries ← entriesOf "delegation" item
  let subnetId ← bytesUnder "subnet_id" entries
  let certificate ← bytesUnder "certificate" entries
  return { subnetId, certificate }

def Delegation.toItem (d : Delegation) : Item :=
  .map [(.text "subnet_id", .bytes d.subnetId), (.text "certificate", .bytes d.certificate)]

namespace Certificate

/-- Entries under other keys do not matter. -/
def ofItem (item : Item) : Except DecodeError Certificate := do
  let entries ← (entriesOf "certificate" item).mapError .certificate
  let tree ← match Item.entry? "tree" entries with
    | some tree => (HashTree.ofItem tree).mapError .tree
    | none => .error (.certificate (.missing "tree"))
  let signature ← (bytesUnder "signature" entries).mapError .certificate
  let delegation ← match Item.entry? "delegation" entries with
    | some delegation => ((Delegation.ofItem delegation).map some).mapError .certificate
    | none => .ok none
  return { tree, signature, delegation }

def toItem (c : Certificate) : Item :=
  let delegation := match c.delegation with
    | some d => [(.text "delegation", d.toItem)]
    | none => []
  .map ((.text "tree", c.tree.toItem) :: (.text "signature", .bytes c.signature) :: delegation)

def decode (bytes : Bytes) : Except DecodeError Certificate := do
  ofItem (← decodeItem bytes)

def encode (c : Certificate) : Bytes :=
  Cbor.encode c.toItem

end Certificate
end Certified
