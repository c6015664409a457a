import Certified.Bytes
import Certified.Sha2.Constants

/-!
SHA-256 and SHA-512. Both are one construction over words of different width: a `Variant` holds
the width, the constants and the rotations, and `hash` is the construction.
-/

namespace Certified.Sha2

/-- What distinguishes the members of the family. -/
structure Variant (W : Type) where
  wordBytes : Nat
  ofNat : Nat → W
  toNat : W → Nat
  /-- The words mixed in, one for each round. -/
  roundWords : List W
  initial : List W
  /-- The two functions that extend the message, and the two that stir the state. -/
  extend0 : W → W
  extend1 : W → W
  stir0 : W → W
  stir1 : W → W

section
variable {W : Type}

/-- The eight words that a hash carries from block to block. -/
structure State (W : Type) where
  (a b c d e f g h : W)

def State.words (s : State W) : List W :=
  [s.a, s.b, s.c, s.d, s.e, s.f, s.g, s.h]

/-- The state that holds the first eight words of a list, padded by `zero`. -/
def State.ofWords (zero : W) (ws : List W) : State W :=
  let word (i : Nat) := ws[i]?.getD zero
  ⟨word 0, word 1, word 2, word 3, word 4, word 5, word 6, word 7⟩

def State.zipWith (op : W → W → W) (s t : State W) : State W :=
  ⟨op s.a t.a, op s.b t.b, op s.c t.c, op s.d t.d, op s.e t.e, op s.f t.f, op s.g t.g, op s.h t.h⟩

variable [Add W] [AndOp W] [XorOp W] [Complement W]

/-- One round with message word `w` and round word `k`. -/
def State.round (v : Variant W) (s : State W) (k w : W) : State W :=
  let choice := (s.e &&& s.f) ^^^ (~~~ s.e &&& s.g)
  let majority := (s.a &&& s.b) ^^^ (s.a &&& s.c) ^^^ (s.b &&& s.c)
  let t := s.h + v.stir1 s.e + choice + k + w
  ⟨t + v.stir0 s.a + majority, s.a, s.b, s.c, s.d + t, s.e, s.f, s.g⟩

/-- The rounds of a block. The sixteen words still to be used slide along the message. -/
def rounds (v : Variant W) : List W → List W → State W → State W
  | [], _, s => s
  | k :: ks, window, s =>
    let word (i : Nat) := window[i]?.getD (v.ofNat 0)
    let next := v.extend1 (word 14) + word 9 + v.extend0 (word 1) + word 0
    rounds v ks (window.tail ++ [next]) (s.round v k (word 0))

def block (v : Variant W) (s : State W) (words : List W) : State W :=
  s.zipWith (· + ·) (rounds v v.roundWords words s)

end

/-- Cuts a list into pieces of `size` elements; what is left over at the end is dropped. -/
def pieces {α : Type} (size : Nat) : Nat → List α → List (List α)
  | 0, _ => []
  | count + 1, l => l.take size :: pieces size count (l.drop size)

/-- The message, a set bit, zeros, and the message's length in bits, filling whole blocks. -/
def pad (wordBytes : Nat) (message : Bytes) : Bytes :=
  let blockBytes := 16 * wordBytes
  let lengthBytes := 2 * wordBytes
  let used := message.length + 1 + lengthBytes
  let zeros := (blockBytes - used % blockBytes) % blockBytes
  message ++ 0x80 :: List.replicate zeros 0 ++ Bytes.ofNatBE lengthBytes (8 * message.length)

section
variable {W : Type} [Add W] [AndOp W] [XorOp W] [Complement W]

def finalState (v : Variant W) (message : Bytes) : State W :=
  let padded := pad v.wordBytes message
  let words := (pieces v.wordBytes (padded.length / v.wordBytes) padded).map
    fun bytes => v.ofNat (Bytes.toNatBE bytes)
  (pieces 16 (words.length / 16) words).foldl (block v) (State.ofWords (v.ofNat 0) v.initial)

/-- The words of the last state, most significant byte first. -/
def hash (v : Variant W) (message : Bytes) : Bytes :=
  (finalState v message).words.flatMap fun w => Bytes.ofNatBE v.wordBytes (v.toNat w)

theorem length_hash (v : Variant W) (message : Bytes) :
    (hash v message).length = 8 * v.wordBytes := by
  simp only [hash, State.words, List.flatMap_cons, List.flatMap_nil, List.length_append,
    Bytes.length_ofNatBE, List.length_nil]
  omega

end

def rotate32 (n : UInt32) (x : UInt32) : UInt32 :=
  (x >>> n) ||| (x <<< (32 - n))

def rotate64 (n : UInt64) (x : UInt64) : UInt64 :=
  (x >>> n) ||| (x <<< (64 - n))

def upperHalf (w : UInt64) : UInt32 :=
  (w >>> 32).toUInt32

def sha256Variant : Variant UInt32 where
  wordBytes := 4
  ofNat := UInt32.ofNat
  toNat := UInt32.toNat
  roundWords := (cubeRootWords.take 64).map upperHalf
  initial := squareRootWords.map upperHalf
  extend0 x := rotate32 7 x ^^^ rotate32 18 x ^^^ (x >>> 3)
  extend1 x := rotate32 17 x ^^^ rotate32 19 x ^^^ (x >>> 10)
  stir0 x := rotate32 2 x ^^^ rotate32 13 x ^^^ rotate32 22 x
  stir1 x := rotate32 6 x ^^^ rotate32 11 x ^^^ rotate32 25 x

def sha512Variant : Variant UInt64 where
  wordBytes := 8
  ofNat := UInt64.ofNat
  toNat := UInt64.toNat
  roundWords := cubeRootWords
  initial := squareRootWords
  extend0 x := rotate64 1 x ^^^ rotate64 8 x ^^^ (x >>> 7)
  extend1 x := rotate64 19 x ^^^ rotate64 61 x ^^^ (x >>> 6)
  stir0 x := rotate64 28 x ^^^ rotate64 34 x ^^^ rotate64 39 x
  stir1 x := rotate64 14 x ^^^ rotate64 18 x ^^^ rotate64 41 x

def sha256 (message : Bytes) : Bytes := hash sha256Variant message

def sha512 (message : Bytes) : Bytes := hash sha512Variant message

@[simp] theorem length_sha256 (message : Bytes) : (sha256 message).length = 32 :=
  length_hash sha256Variant message

end Certified.Sha2
