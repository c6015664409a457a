import Certified.Bytes

/-!
The field with `2 ^ 255 - 19` elements, and repeated doubling, which powers and multiples share.
-/

namespace Certified.Ed25519

/-- The bits of a number below `2 ^ 256`, most significant first. -/
def bits (n : Nat) : List Bool :=
  (List.range 256).reverse.map n.testBit

/-- `x` combined with itself `n` times, by doubling for each bit of `n`. -/
def repeated {α : Type} (op : α → α → α) (one x : α) (n : Nat) : α :=
  (bits n).foldl (fun acc bit => if bit then op (op acc acc) x else op acc acc) one

def fieldOrder : Nat := 1 <<< 255 - 19

/-- A field element, as its residue. -/
structure Element where
  residue : Nat
deriving DecidableEq

namespace Element

def ofNat (n : Nat) : Element := ⟨n % fieldOrder⟩

instance : Add Element := ⟨fun x y => ofNat (x.residue + y.residue)⟩
instance : Mul Element := ⟨fun x y => ofNat (x.residue * y.residue)⟩
instance : Neg Element := ⟨fun x => ofNat (fieldOrder - x.residue)⟩
instance : Sub Element := ⟨fun x y => x + -y⟩

def pow (x : Element) (n : Nat) : Element :=
  repeated (· * ·) (ofNat 1) x n

/-- The inverse, by Fermat's theorem; zero for zero. -/
def inverse (x : Element) : Element :=
  x.pow (fieldOrder - 2)

/-- A square root of -1. -/
def rootOfMinusOne : Element :=
  (ofNat 2).pow ((fieldOrder - 1) / 4)

/-- A square root of `u / v`, if there is one. -/
def rootOfQuotient? (u v : Element) : Option Element :=
  let near := u * v.pow 3 * (u * v.pow 7).pow ((fieldOrder - 5) / 8)
  let square := v * near * near
  if square = u then some near
  else if square = -u then some (near * rootOfMinusOne)
  else none

/-- Odd residues count as negative. -/
def isNegative (x : Element) : Bool :=
  x.residue % 2 = 1

end Element
end Certified.Ed25519
