/-!
Numbers as digits of a base, most significant first, in a fixed number of places, and the characters
for digits.
-/

namespace Certified.Radix

/-- The value of a character that is a digit of a base up to sixteen, in either case. -/
def digitOf? (base : Nat) (c : Char) : Option Nat :=
  let n := c.toNat
  let value :=
    if 48 ≤ n ∧ n ≤ 57 then n - 48
    else if 97 ≤ n ∧ n ≤ 102 then n - 87
    else if 65 ≤ n ∧ n ≤ 70 then n - 55
    else base
  if value < base then some value else none

/-- A number with its sign: true for a minus. -/
def signed (negative : Bool) (n : Nat) : Int :=
  if negative then -n else n

/-- The last `width` digits of `n`. -/
def digits (base : Nat) : (width : Nat) → (n : Nat) → List Nat
  | 0, _ => []
  | width + 1, n => digits base width (n / base) ++ [n % base]

/-- The number that the digits spell. -/
def value (base : Nat) (ds : List Nat) : Nat :=
  ds.foldl (fun n d => base * n + d) 0

@[simp] theorem length_digits (base width n : Nat) : (digits base width n).length = width := by
  induction width generalizing n with
  | zero => rfl
  | succ width ih => simp [digits, ih]

@[simp] theorem value_append_singleton (base : Nat) (ds : List Nat) (d : Nat) :
    value base (ds ++ [d]) = base * value base ds + d := by
  simp [value]

end Certified.Radix
