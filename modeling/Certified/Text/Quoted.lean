/-!
Characters and texts between quotation marks, as they stand in messages: what is not printed as
itself is written as an escape.
-/

namespace Certified.Text.Quoted

/-- The lowercase hexadecimal digits of a number, without leading zeros. -/
def hexNumber (n : Nat) : List Char :=
  Nat.toDigits 16 n

/-- Control characters, blanks other than the space, and the soft hyphen do not print. -/
def isPrinted (c : Char) : Bool :=
  let n := c.toNat
  !(n < 0x20 || (0x7f ≤ n && n ≤ 0xa0) || n == 0xad || n == 0x1680 || (0x2000 ≤ n && n ≤ 0x200f) ||
    (0x2028 ≤ n && n ≤ 0x202f) || (0x205f ≤ n && n ≤ 0x206f) || n == 0x3000 || n == 0xfeff)

/-- A character inside a pair of `mark`s. -/
def escape (mark : Char) (c : Char) : List Char :=
  if c = '\x00' then ['\\', '0']
  else if c = '\t' then ['\\', 't']
  else if c = '\n' then ['\\', 'n']
  else if c = '\r' then ['\\', 'r']
  else if c = '\\' then ['\\', '\\']
  else if c = mark then ['\\', mark]
  else if isPrinted c then [c]
  else ['\\', 'u', '\x7b'] ++ hexNumber c.toNat ++ ['\x7d']

def char (c : Char) : String :=
  String.ofList ('\'' :: escape '\'' c ++ ['\''])

def text (s : String) : String :=
  String.ofList ('"' :: s.toList.flatMap (escape '"') ++ ['"'])

end Certified.Text.Quoted
