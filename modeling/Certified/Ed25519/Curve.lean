import Certified.Ed25519.Field

/-!
The twisted Edwards curve `-x² + y² = 1 + d x² y²` of Ed25519 and the 32-byte form of its points:
`y` in little-endian order with the sign of `x` in the top bit.
-/

namespace Certified.Ed25519

def curveConstant : Element :=
  -Element.ofNat 121665 * (Element.ofNat 121666).inverse

/-- A point as `(x / z, y / z)`, with `t = x y / z`. -/
structure Point where
  (x y z t : Element)

namespace Point

def zero : Point := ⟨.ofNat 0, .ofNat 1, .ofNat 1, .ofNat 0⟩

/-- The sum of any two points; the formulas hold for equal points too. -/
def add (p q : Point) : Point :=
  let a := (p.y - p.x) * (q.y - q.x)
  let b := (p.y + p.x) * (q.y + q.x)
  let c := p.t * Element.ofNat 2 * curveConstant * q.t
  let d := p.z * Element.ofNat 2 * q.z
  let e := b - a
  let f := d - c
  let g := d + c
  let h := b + a
  ⟨e * f, g * h, f * g, e * h⟩

def neg (p : Point) : Point :=
  ⟨-p.x, p.y, p.z, -p.t⟩

def multiple (n : Nat) (p : Point) : Point :=
  repeated add zero p n

/-- The top bit of 32 bytes. -/
def signBit : Nat := 1 <<< 255

def encode (p : Point) : Bytes :=
  let scale := p.z.inverse
  let x := p.x * scale
  let y := p.y * scale
  Bytes.ofNatLE 32 (y.residue + if x.isNegative then signBit else 0)

/-- The point with this `y` and this sign of `x`. A zero `x` has both signs. -/
def ofSignedY? (y : Element) (negative : Bool) : Option Point := do
  let one := Element.ofNat 1
  let x ← Element.rootOfQuotient? (y * y - one) (curveConstant * y * y + one)
  let x := if x.isNegative = negative then x else -x
  some ⟨x, y, one, x * y⟩

/-- The point that 32 bytes encode; `y` counts modulo the order of the field. -/
def decode? (bytes : Bytes) : Option Point :=
  let n := Bytes.toNatLE bytes
  ofSignedY? (.ofNat (n % signBit)) (n.testBit 255)

/-- The base point: `y = 4 / 5` and a positive `x`. -/
def base : Point :=
  (ofSignedY? (Element.ofNat 4 * (Element.ofNat 5).inverse) false).getD zero

end Point

/-- The order of the base point. -/
def groupOrder : Nat := 1 <<< 252 + 27742317777372353535851937790883648493

end Certified.Ed25519
