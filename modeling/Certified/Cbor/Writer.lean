import Certified.Cbor.Item

/-!
Writing data items: definite lengths, the shortest form of every length and number.
-/

namespace Certified.Cbor

/-- The bytes of the tag that marks data as CBOR. -/
def selfDescribed : Bytes :=
  [0xd9, 0xd9, 0xf7]

/-- An initial byte and its argument in the fewest bytes. -/
def writeHead (major n : Nat) : Bytes :=
  let initial (info : Nat) : UInt8 := UInt8.ofNat (32 * major + info)
  if n < 24 then [initial n]
  else if n < UInt8.size then initial 24 :: Bytes.ofNatBE 1 n
  else if n < UInt16.size then initial 25 :: Bytes.ofNatBE 2 n
  else if n < UInt32.size then initial 26 :: Bytes.ofNatBE 4 n
  else initial 27 :: Bytes.ofNatBE 8 n

mutual

/-- The bytes of an item. -/
def write : Item → Bytes
  | .null => [0xf6]
  | .bool value => [if value then 0xf5 else 0xf4]
  | .integer value =>
    if 0 ≤ value then writeHead 0 value.toNat else writeHead 1 (-1 - value).toNat
  | .float bytes =>
    (if bytes.length = 2 then 0xf9 else if bytes.length = 4 then 0xfa else 0xfb) :: bytes
  | .bytes value => writeHead 2 value.length ++ value
  | .text value =>
    let bytes := Bytes.ofText value
    writeHead 3 bytes.length ++ bytes
  | .array items => writeHead 4 items.length ++ writeAll items
  | .map entries => writeHead 5 entries.length ++ writeEntries entries
  | .tag number item => writeHead 6 number ++ write item

def writeAll : List Item → Bytes
  | [] => []
  | item :: rest => write item ++ writeAll rest

def writeEntries : List (Item × Item) → Bytes
  | [] => []
  | (key, value) :: rest => write key ++ write value ++ writeEntries rest

end

/-- The bytes of an item after the mark of CBOR data. -/
def encode (item : Item) : Bytes :=
  selfDescribed ++ write item

end Certified.Cbor
