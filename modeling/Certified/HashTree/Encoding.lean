import Certified.Cbor.Reader
import Certified.HashTree.Basic

/-!
Hash trees as CBOR items. A node is an array that starts with a number for its kind: `[0]`,
`[1, left, right]`, `[2, label, subtree]`, `[3, value]` or `[4, digest]`.
-/

namespace Certified.HashTree

open Cbor (Item Kind)

/-- The parts of a node. -/
inductive Part where
  | leftSubtree | rightSubtree | label | labeledSubtree | leafValue | prunedDigest
deriving DecidableEq, Repr

def Part.name : Part → String
  | .leftSubtree => "left subtree"
  | .rightSubtree => "right subtree"
  | .label => "label"
  | .labeledSubtree => "labeled subtree"
  | .leafValue => "leaf value"
  | .prunedDigest => "pruned digest"

/-- Why an item is not a hash tree. -/
inductive ShapeError where
  | nodeNotArray (found : Kind)
  | emptyNode
  | codeNotInteger (found : Kind)
  | unknownCode (code : Int)
  | missing (part : Part)
  | notBytes (part : Part) (found : Kind)
  | digestLength (length : Nat)
  | trailing (code : Int)
deriving DecidableEq, Repr

def ShapeError.message : ShapeError → String
  | .nodeNotArray found => "node must be an array, got " ++ found.name
  | .emptyNode => "empty node"
  | .codeNotInteger found => "node tag must be an integer, got " ++ found.name
  | .unknownCode code => "unknown node tag " ++ toString code
  | .missing part => "missing " ++ part.name
  | .notBytes part found => part.name ++ " must be bytes, got " ++ found.name
  | .digestLength length => "pruned digest has " ++ toString length ++ " bytes"
  | .trailing code => "trailing elements in node tag " ++ toString code

def bytesOf (part : Part) (item : Item) : Except ShapeError Bytes :=
  match item.untag with
  | .bytes value => .ok value
  | other => .error (.notBytes part other.kind)

def digestOf (item : Item) : Except ShapeError Digest := do
  let bytes ← bytesOf .prunedDigest item
  match Digest.ofBytes? bytes with
  | some digest => return digest
  | none => .error (.digestLength bytes.length)

/-- The node, if nothing is left of its array. -/
def close (code : Int) (node : HashTree) : List Item → Except ShapeError HashTree
  | [] => .ok node
  | _ :: _ => .error (.trailing code)

/-- The tree of an item; tags do not matter. The parts of a node are looked at from left to right. -/
def ofItem : Item → Except ShapeError HashTree
  | .tag _ item => ofItem item
  | .array [] => .error .emptyNode
  | .array (code :: parts) =>
    match code.untag, parts with
    | .integer 0, rest => close 0 .empty rest
    | .integer 1, [] => .error (.missing .leftSubtree)
    | .integer 1, [left] => do
      let _ ← ofItem left
      .error (.missing .rightSubtree)
    | .integer 1, left :: right :: rest => do
      let left ← ofItem left
      let right ← ofItem right
      close 1 (.fork left right) rest
    | .integer 2, [] => .error (.missing .label)
    | .integer 2, [label] => do
      let _ ← bytesOf .label label
      .error (.missing .labeledSubtree)
    | .integer 2, label :: subtree :: rest => do
      let label ← bytesOf .label label
      let subtree ← ofItem subtree
      close 2 (.labeled label subtree) rest
    | .integer 3, [] => .error (.missing .leafValue)
    | .integer 3, value :: rest => do
      let value ← bytesOf .leafValue value
      close 3 (.leaf value) rest
    | .integer 4, [] => .error (.missing .prunedDigest)
    | .integer 4, digest :: rest => do
      let digest ← digestOf digest
      close 4 (.pruned digest) rest
    | .integer other, _ => .error (.unknownCode other)
    | other, _ => .error (.codeNotInteger other.kind)
  | item => .error (.nodeNotArray item.kind)

/-- The item of a tree. -/
def toItem : HashTree → Item
  | .empty => .array [.integer 0]
  | .fork left right => .array [.integer 1, left.toItem, right.toItem]
  | .labeled label subtree => .array [.integer 2, .bytes label, subtree.toItem]
  | .leaf value => .array [.integer 3, .bytes value]
  | .pruned digest => .array [.integer 4, .bytes digest.bytes]

def encode (t : HashTree) : Bytes :=
  Cbor.encode t.toItem

end Certified.HashTree
