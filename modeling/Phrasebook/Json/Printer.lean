import Phrasebook.Json.Basic
import Phrasebook.Text.Quoted

/-!
# Writing values

`compact` writes a value without blanks, `pretty` with one member a line and two blanks per level. In a string the
quote, the backslash and the control characters are escaped, and everything else stands for itself.
-/

namespace Phrasebook

namespace Json

/-! ## Strings -/

/-- A number below 256 as two hexadecimal digits. -/
def twoHexDigits (n : Nat) : List Char := [Nat.digitChar (n / 16), Nat.digitChar (n % 16)]

/-- One character of a written string. -/
def escaped (c : Char) : List Char :=
  if c = '"' then ['\\', '"']
  else if c = '\\' then ['\\', '\\']
  else if c = '\x08' then ['\\', 'b']
  else if c = '\x0c' then ['\\', 'f']
  else if c = '\n' then ['\\', 'n']
  else if c = '\r' then ['\\', 'r']
  else if c = '\t' then ['\\', 't']
  else if c.toNat < 0x20 then ['\\', 'u', '0', '0'] ++ twoHexDigits c.toNat
  else [c]

def quotedChars (s : String) : List Char := '"' :: (s.toList.flatMap escaped ++ ['"'])

/-- The word of a truth value. -/
def boolChars (b : Bool) : List Char :=
  if b then ['t', 'r', 'u', 'e'] else ['f', 'a', 'l', 's', 'e']

/-! ## Without blanks -/

mutual

/-- The characters of a value written without blanks. -/
def compactChars : Json → List Char
  | .null => ['n', 'u', 'l', 'l']
  | .bool b => boolChars b
  | .number n => n.text
  | .string s => quotedChars s
  | .array items => '[' :: (compactItems items ++ [']'])
  | .object fields => '{' :: (compactFields fields ++ ['}'])
termination_by structural v => v

/-- The items of an array with commas between them. -/
def compactItems : List Json → List Char
  | [] => []
  | [v] => compactChars v
  | v :: v' :: vs => compactChars v ++ ',' :: compactItems (v' :: vs)
termination_by structural vs => vs

/-- The fields of an object with commas between them. -/
def compactFields : List (String × Json) → List Char
  | [] => []
  | [(n, v)] => quotedChars n ++ ':' :: compactChars v
  | (n, v) :: f :: fs => quotedChars n ++ ':' :: (compactChars v ++ ',' :: compactFields (f :: fs))
termination_by structural fs => fs

end

/-- A value written without blanks. -/
def compact (v : Json) : String := String.ofList (compactChars v)

/-! ## With a line for each member -/

/-- A line feed and the blanks in front of a line of a level. -/
def newline (level : Nat) : List Char := '\n' :: List.replicate (2 * level) ' '

mutual

/-- The characters of a value that stands at a level. -/
def prettyChars (level : Nat) : Json → List Char
  | .null => ['n', 'u', 'l', 'l']
  | .bool b => boolChars b
  | .number n => n.text
  | .string s => quotedChars s
  | .array [] => ['[', ']']
  | .array items => '[' :: (prettyItems (level + 1) items ++ newline level ++ [']'])
  | .object [] => ['{', '}']
  | .object fields => '{' :: (prettyFields (level + 1) fields ++ newline level ++ ['}'])
termination_by structural v => v

def prettyItems (level : Nat) : List Json → List Char
  | [] => []
  | [v] => newline level ++ prettyChars level v
  | v :: v' :: vs => newline level ++ prettyChars level v ++ ',' :: prettyItems level (v' :: vs)
termination_by structural vs => vs

def prettyFields (level : Nat) : List (String × Json) → List Char
  | [] => []
  | [(n, v)] => newline level ++ quotedChars n ++ [':', ' '] ++ prettyChars level v
  | (n, v) :: f :: fs =>
    newline level ++ quotedChars n ++ [':', ' '] ++ prettyChars level v ++ ',' :: prettyFields level (f :: fs)
termination_by structural fs => fs

end

/-- A value written with a line for each member. -/
def pretty (v : Json) : String := String.ofList (prettyChars 0 v)

end Json

end Phrasebook
