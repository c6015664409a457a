import Certified.Cbor.Writer
import Certified.Text.Utf8

/-!
Reading data items. A reader takes bytes from the front and returns the item and the bytes after
it; an error tells where it was found, counted from the start of the item read first. Tags are
read and dropped.
-/

namespace Certified.Cbor

inductive ReadError.Cause where
  | endOfValue
  | endOfArray
  | endOfMap
  | unassigned
  | unexpected
  | invalidText
  | lengthOutOfRange
  | tooDeep
  | trailing
deriving DecidableEq, Repr

structure ReadError where
  cause : ReadError.Cause
  offset : Nat
deriving DecidableEq, Repr

def ReadError.Cause.message : ReadError.Cause → String
  | .endOfValue => "EOF while parsing a value"
  | .endOfArray => "EOF while parsing an array"
  | .endOfMap => "EOF while parsing a map"
  | .unassigned => "unassigned type"
  | .unexpected => "unexpected code"
  | .invalidText => "invalid UTF-8"
  | .lengthOutOfRange => "length out of range"
  | .tooDeep => "recursion limit exceeded"
  | .trailing => "trailing data"

/-- Offset zero is not mentioned. -/
def ReadError.message (e : ReadError) : String :=
  if e.offset = 0 then e.cause.message
  else e.cause.message ++ " at offset " ++ toString e.offset

/-- Reads a value from the front of a byte string and returns it with the bytes after it. -/
abbrev Reader (α : Type) := Bytes → Except ReadError (α × Bytes)

/-- Every reader below knows the length `total` of the whole input, so that the offset of an error
is what is no longer there to read. -/
def fail {α : Type} (total : Nat) (cause : ReadError.Cause) (rest : Bytes) : Except ReadError α :=
  .error ⟨cause, total - rest.length⟩

def readBytes (total count : Nat) (rest : Bytes) : Except ReadError (Bytes × Bytes) :=
  if count ≤ rest.length then .ok (rest.take count, rest.drop count)
  else fail total .endOfValue []

/-- The argument that the low five bits `info` of an initial byte announce, or none where the length
is indefinite. -/
def readArgument (total info : Nat) (rest : Bytes) : Except ReadError (Option Nat × Bytes) :=
  if info < 24 then .ok (some info, rest)
  else if info < 28 then do
    let (digits, rest) ← readBytes total (1 <<< (info - 24)) rest
    return (some (Bytes.toNatBE digits), rest)
  else if info < 31 then fail total .unassigned rest
  else .ok (none, rest)

/-- `count` values, one after the other. -/
def readMany {α : Type} (read : Reader α) : Nat → Reader (List α)
  | 0, rest => .ok ([], rest)
  | count + 1, rest => do
    let (value, rest) ← read rest
    let (values, rest) ← readMany read count rest
    return (value :: values, rest)

/-- Values up to the byte that ends an indefinite length. The fuel is a bound on the number of
bytes left, each value taking at least one. -/
def readToBreak {α : Type} (atEnd : ReadError) (read : Reader α) : Nat → Reader (List α)
  | 0, _ => .error atEnd
  | _, [] => .error atEnd
  | fuel + 1, b :: rest =>
    if b = 0xff then .ok ([], rest)
    else do
      let (value, rest) ← read (b :: rest)
      let (values, rest) ← readToBreak atEnd read fuel rest
      return (value :: values, rest)

/-- One definite piece of a string of indefinite length. -/
def readChunk (total major : Nat) : Reader Bytes
  | [] => fail total .endOfValue []
  | b :: rest =>
    if b.toNat / 32 = major ∧ b.toNat % 32 < 28 then do
      let (length, rest) ← readArgument total (b.toNat % 32) rest
      readBytes total (length.getD 0) rest
    else fail total .unexpected rest

/-- The bytes of a string that ends where `rest` begins, as text. -/
def readText (total : Nat) (bytes rest : Bytes) : Except ReadError (Item × Bytes) :=
  match Utf8.split bytes with
  | (chars, []) => .ok (.text (String.ofList chars), rest)
  | (_, invalid) => fail total .invalidText (invalid ++ rest)

def readSimple (total info : Nat) (rest : Bytes) : Except ReadError (Item × Bytes) :=
  let float (width : Nat) : Except ReadError (Item × Bytes) := do
    let (bytes, rest) ← readBytes total width rest
    return (.float bytes, rest)
  match info with
  | 20 => .ok (.bool false, rest)
  | 21 => .ok (.bool true, rest)
  | 22 | 23 => .ok (.null, rest)
  | 25 => float 2
  | 26 => float 4
  | 27 => float 8
  | 31 => fail total .unexpected rest
  | _ => fail total .unassigned rest

/-- An item whose nested items are read by `nested`, or which may hold none. -/
def readItemWith (total : Nat) (nested : Option (Reader Item)) : Reader Item
  | [] => fail total .endOfValue []
  | b :: rest =>
    let major := b.toNat / 32
    let info := b.toNat % 32
    if major = 7 then readSimple total info rest
    else do
      let (argument, rest) ← readArgument total info rest
      let enter : Except ReadError (Reader Item) :=
        match nested with
        | some read => .ok read
        | none => fail total .tooDeep rest
      match major, argument with
      | 0, some n => return (.integer n, rest)
      | 1, some n => return (.integer (-1 - n), rest)
      | 2, some length =>
        let (bytes, rest) ← readBytes total length rest
        return (.bytes bytes, rest)
      | 2, none =>
        let (chunks, rest) ← readToBreak ⟨.endOfValue, total⟩ (readChunk total 2) rest.length rest
        return (.bytes chunks.flatten, rest)
      | 3, some length =>
        if UInt64.size ≤ total - rest.length + length then fail total .lengthOutOfRange rest
        else
          let (bytes, rest) ← readBytes total length rest
          readText total bytes rest
      | 3, none =>
        let (chunks, rest) ← readToBreak ⟨.endOfValue, total⟩ (readChunk total 3) rest.length rest
        readText total chunks.flatten rest
      | 4, some length =>
        let read ← enter
        let (items, rest) ← readMany read length rest
        return (.array items, rest)
      | 4, none =>
        let read ← enter
        let (items, rest) ← readToBreak ⟨.endOfArray, total⟩ read rest.length rest
        return (.array items, rest)
      | 5, some length =>
        let read ← enter
        let (entries, rest) ← readMany (readEntry read) length rest
        return (.map entries, rest)
      | 5, none =>
        let read ← enter
        let (entries, rest) ← readToBreak ⟨.endOfMap, total⟩ (readEntry read) rest.length rest
        return (.map entries, rest)
      | 6, some _ =>
        let read ← enter
        read rest
      | _, _ => fail total .unassigned rest
where
  /-- A key and its value. -/
  readEntry (read : Reader Item) (bytes : Bytes) : Except ReadError ((Item × Item) × Bytes) := do
    let (key, rest) ← read bytes
    let (value, rest) ← read rest
    return ((key, value), rest)

/-- An item in which at most `depth` arrays, maps and tags are open at once. -/
def readItem (total : Nat) : (depth : Nat) → Reader Item
  | 0 => readItemWith total none
  | depth + 1 => readItemWith total (some (readItem total depth))

/-- The number of arrays, maps and tags that may be open at once. -/
def depthLimit : Nat := 127

/-- The item that a byte string spells, with or without the mark of CBOR data. Offsets count from
after the mark. -/
def decode (bytes : Bytes) : Except ReadError Item := do
  let body := if selfDescribed.isPrefixOf bytes then bytes.drop selfDescribed.length else bytes
  match ← readItem body.length depthLimit body with
  | (item, []) => return item
  | (_, _ :: rest) => fail body.length .trailing rest

end Certified.Cbor
