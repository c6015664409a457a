import Certified.Json.Basic
import Certified.Radix

/-!
Writing JSON texts, on one line or over several with two blanks for each level.
-/

namespace Certified.Json

def escape (c : Char) : List Char :=
  if c = '"' then ['\\', '"']
  else if c = '\\' then ['\\', '\\']
  else if c = '\x08' then ['\\', 'b']
  else if c = '\x0c' then ['\\', 'f']
  else if c = '\n' then ['\\', 'n']
  else if c = '\r' then ['\\', 'r']
  else if c = '\t' then ['\\', 't']
  else if c.toNat < 0x20 then
    ['\\', 'u'] ++ (Radix.digits 16 4 c.toNat).map Nat.digitChar
  else [c]

def quote (s : String) : String :=
  String.ofList ('"' :: s.toList.flatMap escape ++ ['"'])

mutual

/-- The text of a value on one line, without blanks. -/
def compact : Json → String
  | .null => "null"
  | .bool value => if value then "true" else "false"
  | .integer value => toString value
  | .decimal literal => literal
  | .string text => quote (text.getD "")
  | .array items => "[" ++ compactItems items ++ "]"
  | .object fields => "\x7b" ++ compactFields fields ++ "\x7d"

def compactItems : List Json → String
  | [] => ""
  | [item] => item.compact
  | item :: rest => item.compact ++ "," ++ compactItems rest

def compactFields : List (Option String × Json) → String
  | [] => ""
  | [(key, value)] => quote (key.getD "") ++ ":" ++ value.compact
  | (key, value) :: rest => quote (key.getD "") ++ ":" ++ value.compact ++ "," ++ compactFields rest

end

/-- A new line that starts with two blanks for each level. -/
def newLine (level : Nat) : String :=
  String.ofList ('\n' :: List.replicate (2 * level) ' ')

mutual

/-- The text of a value whose lines after the first are indented to `level`. Empty arrays and
objects stay on one line. -/
def pretty (level : Nat) : Json → String
  | .array [] => "[]"
  | .array items => "[" ++ prettyItems (level + 1) items ++ newLine level ++ "]"
  | .object [] => "\x7b\x7d"
  | .object fields => "\x7b" ++ prettyFields (level + 1) fields ++ newLine level ++ "\x7d"
  | value => value.compact

def prettyItems (level : Nat) : List Json → String
  | [] => ""
  | [item] => newLine level ++ item.pretty level
  | item :: rest => newLine level ++ item.pretty level ++ "," ++ prettyItems level rest

def prettyFields (level : Nat) : List (Option String × Json) → String
  | [] => ""
  | [(key, value)] => newLine level ++ quote (key.getD "") ++ ": " ++ value.pretty level
  | (key, value) :: rest =>
    newLine level ++ quote (key.getD "") ++ ": " ++ value.pretty level ++ "," ++
      prettyFields level rest

end

end Certified.Json
