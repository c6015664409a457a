import Certified.Radix
import Certified.Toml.Basic

/-!
Writing TOML strings: in the first of several forms that holds the text as it stands, and with escapes
if none does.
-/

namespace Certified.Toml

/-- A control character other than the tab and the line feed. -/
def isControl (c : Char) : Bool :=
  (c.toNat < 0x20 && c != '\t' && c != '\n') || c.toNat == 0x7f

/-- The length of the longest run of a character; `run` of them stand before the text. -/
def longestRun (mark : Char) (run : Nat) : List Char → Nat
  | [] => run
  | c :: rest =>
    if c = mark then longestRun mark (run + 1) rest else max run (longestRun mark 0 rest)

inductive StringForm where
  | basic
  | literal
  | multilineBasic
  | multilineLiteral
deriving DecidableEq

def StringForm.ofChars (chars : List Char) : StringForm :=
  let control := chars.any isControl
  let backslash := chars.contains '\\'
  let newline := chars.contains '\n'
  let double := longestRun '"' 0 chars
  let single := longestRun '\'' 0 chars
  if !control && !backslash && double = 0 && !newline then .basic
  else if !control && single = 0 && !newline then .literal
  else if !control && !backslash && double ≤ 2 then .multilineBasic
  else if !control && single ≤ 2 then .multilineLiteral
  else if newline then .multilineBasic
  else .basic

/-- The escape of a character other than a quotation mark, if it needs one. -/
def escape (multiline : Bool) (c : Char) : List Char :=
  if c = '\x08' then ['\\', 'b']
  else if c = '\t' then ['\\', 't']
  else if c = '\n' then if multiline then [c] else ['\\', 'n']
  else if c = '\x0c' then ['\\', 'f']
  else if c = '\r' then ['\\', 'r']
  else if c = '\\' then ['\\', '\\']
  else if isControl c then
    ['\\', 'u'] ++ (Radix.digits 16 4 c.toNat).map fun n => (Nat.digitChar n).toUpper
  else [c]

/-- A text with escapes. Over several lines, two double quotation marks in a row need none; `run` of
them stand before the text. -/
def escaped (multiline : Bool) (run : Nat) : List Char → List Char
  | [] => []
  | '"' :: rest =>
    if run < (if multiline then 2 else 0) then '"' :: escaped multiline (run + 1) rest
    else '\\' :: '"' :: escaped multiline 0 rest
  | c :: rest => escape multiline c ++ escaped multiline 0 rest

/-- A line feed in front of a text of several lines is not part of it. -/
def firstNewline (chars : List Char) : List Char :=
  if chars.contains '\n' then ['\n'] else []

def writeString (text : String) : String :=
  let chars := text.toList
  String.ofList <| match StringForm.ofChars chars with
    | .basic => ['"'] ++ escaped false 0 chars ++ ['"']
    | .literal => ['\''] ++ chars ++ ['\'']
    | .multilineBasic =>
      ['"', '"', '"'] ++ firstNewline chars ++ escaped true 0 chars ++ ['"', '"', '"']
    | .multilineLiteral =>
      ['\'', '\'', '\''] ++ firstNewline chars ++ chars ++ ['\'', '\'', '\'']

/-- A line that gives a key its value. -/
def assignmentLine (key value : String) : String :=
  key ++ " = " ++ value ++ "\n"

end Certified.Toml
