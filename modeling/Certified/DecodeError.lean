import Certified.HashTree.Encoding
import Certified.HashTree.Lookup
import Certified.Leb128

/-!
Why trees, certificates and the values inside them cannot be read.
-/

namespace Certified

open Cbor (Kind)

/-- Why a certificate, or something it holds, has the wrong shape. -/
inductive CertificateError where
  | notMap (what : String) (found : Kind)
  | missing (key : String)
  | notBytes (key : String) (found : Kind)
  | rangesNotArray (found : Kind)
  | rangeNotArray (found : Kind)
  | rangeNotPair
  /-- No value was found at the path of the time. -/
  | noTime (answer : Answer)
  | timeNotNumber (cause : Leb128.ReadError)
deriving DecidableEq, Repr

def Answer.name : Answer → String
  | .found _ => "Found"
  | .absent => "Absent"
  | .unknown => "Unknown"
  | .error => "Error"

def CertificateError.message : CertificateError → String
  | .notMap what found => what ++ " must be a map, got " ++ found.name
  | .missing key => "missing '" ++ key ++ "'"
  | .notBytes key found => "'" ++ key ++ "' must be bytes, got " ++ found.name
  | .rangesNotArray found => "canister ranges must be an array, got " ++ found.name
  | .rangeNotArray found => "canister range must be an array, got " ++ found.name
  | .rangeNotPair => "canister range must be a pair of byte strings"
  | .noTime answer => "time lookup returned " ++ answer.name
  | .timeNotNumber cause => "time is not valid LEB128: " ++ cause.message

inductive DecodeError where
  | cbor (cause : Cbor.ReadError)
  | tree (cause : HashTree.ShapeError)
  | certificate (cause : CertificateError)
deriving DecidableEq, Repr

def DecodeError.message : DecodeError → String
  | .cbor cause => "CBOR error: " ++ cause.message
  | .tree cause => "Malformed hash tree: " ++ cause.message
  | .certificate cause => "Malformed certificate: " ++ cause.message

/-- The texts of the errors behind an error, the nearest first. -/
def DecodeError.causes : DecodeError → List String
  | .cbor cause => [cause.message]
  | .tree _ | .certificate _ => []

/-- The item that a byte string spells. -/
def decodeItem (bytes : Bytes) : Except DecodeError Cbor.Item :=
  (Cbor.decode bytes).mapError .cbor

/-- The tree that a byte string spells. -/
def HashTree.decode (bytes : Bytes) : Except DecodeError HashTree := do
  (HashTree.ofItem (← decodeItem bytes)).mapError .tree

end Certified
