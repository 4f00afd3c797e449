/-!
# Written values

A text of the data format after its grammar has been read and before its numbers and strings are evaluated. Parts
of a document that nobody asks for stay in this form, so a number out of range is an error only where it is used.

`JsonSyntax.read?` reads a whole text. Nesting is not limited here.
-/

namespace Phrasebook

namespace JsonSyntax

/-- A piece of a written string: a character, or a code unit of sixteen bits written in hexadecimal. -/
inductive Piece where
  /-- A character, written as itself or by a letter. -/
  | char (c : Char)
  /-- A code unit written with four hexadecimal digits. -/
  | unit (n : Nat)
  deriving DecidableEq, Repr

/-- A written number, as its groups of decimal digits. -/
structure Numeral where
  /-- Whether it begins with a minus sign. -/
  negative : Bool
  /-- The digits before the point. -/
  whole : List Nat
  /-- The digits after the point, when there is one. -/
  fraction : Option (List Nat)
  /-- The digits of the exponent and whether its sign is minus, when there is one. -/
  exponent : Option (Bool × List Nat)
  deriving DecidableEq, Repr

end JsonSyntax

/-- A written value. -/
inductive JsonSyntax where
  /-- The word `null`. -/
  | null
  /-- The word `true` or `false`. -/
  | bool (value : Bool)
  | number (value : JsonSyntax.Numeral)
  | string (pieces : List JsonSyntax.Piece)
  /-- A list of values between square brackets. -/
  | array (items : List JsonSyntax)
  /-- Members between braces, in the order of the text; a name may occur more than once. -/
  | object (members : List (List JsonSyntax.Piece × JsonSyntax))
  deriving Repr, Inhabited

namespace JsonSyntax

/-! ## Characters -/

/-- The blanks between the parts of a text. -/
def isSpace (c : Char) : Bool := c = ' ' || c = '\n' || c = '\t' || c = '\r'

/-- The text without the blanks it starts with. -/
def skipSpace (s : List Char) : List Char := s.dropWhile isSpace

def digit? (c : Char) : Option Nat :=
  if '0' ≤ c && c ≤ '9' then some (c.toNat - '0'.toNat) else none

def hexDigit? (c : Char) : Option Nat :=
  if '0' ≤ c && c ≤ '9' then some (c.toNat - '0'.toNat)
  else if 'a' ≤ c && c ≤ 'f' then some (c.toNat - 'a'.toNat + 10)
  else if 'A' ≤ c && c ≤ 'F' then some (c.toNat - 'A'.toNat + 10)
  else none

/-- The decimal digits a text starts with, and the rest. -/
def digits : List Char → List Nat × List Char
  | [] => ([], [])
  | c :: cs => match digit? c with
    | some d => ((d :: (digits cs).1), (digits cs).2)
    | none => ([], c :: cs)

/-! ## Strings -/

/-- The character that stands for a letter after a backslash. -/
def escape? : Char → Option Char
  | '"' => some '"'
  | '\\' => some '\\'
  | '/' => some '/'
  | 'b' => some '\x08'
  | 'f' => some '\x0c'
  | 'n' => some '\n'
  | 'r' => some '\r'
  | 't' => some '\t'
  | _ => none

/-- The number of four hexadecimal digits. -/
def hexUnit? (a b c d : Char) : Option Nat := do
  let a ← hexDigit? a
  let b ← hexDigit? b
  let c ← hexDigit? c
  let d ← hexDigit? d
  return ((a * 16 + b) * 16 + c) * 16 + d

/-- The pieces of a string up to its closing quote, and the text after it. -/
def stringBody : List Char → Option (List Piece × List Char)
  | [] => none
  | '"' :: cs => some ([], cs)
  | '\\' :: 'u' :: a :: b :: c :: d :: cs => do
    let n ← hexUnit? a b c d
    let (ps, rest) ← stringBody cs
    return (.unit n :: ps, rest)
  | '\\' :: e :: cs => do
    let c ← escape? e
    let (ps, rest) ← stringBody cs
    return (.char c :: ps, rest)
  | c :: cs =>
    if c.toNat < 0x20 || c = '\\' then none
    else (stringBody cs).map fun r => (.char c :: r.1, r.2)

/-! ## Numbers -/

/-- The fraction a text starts with, if any; a point needs a digit after it. -/
def fraction? : List Char → Option (Option (List Nat) × List Char)
  | '.' :: cs =>
    let (ds, rest) := digits cs
    if ds.isEmpty then none else some (some ds, rest)
  | cs => some (none, cs)

/-- The sign of an exponent, minus being true, and the text after it. -/
def exponentSign : List Char → Bool × List Char
  | '+' :: cs => (false, cs)
  | '-' :: cs => (true, cs)
  | cs => (false, cs)

/-- The exponent a text starts with, if any; its letter needs a digit after it. -/
def exponent? : List Char → Option (Option (Bool × List Nat) × List Char)
  | c :: cs =>
    if c = 'e' || c = 'E' then
      let (negative, cs) := exponentSign cs
      let (ds, rest) := digits cs
      if ds.isEmpty then none else some (some (negative, ds), rest)
    else some (none, c :: cs)
  | [] => some (none, [])

/-- The digits before the point: a zero stands alone. -/
def whole? (s : List Char) : Option (List Nat × List Char) :=
  match digits s with
  | ([], _) => none
  | (0 :: _ :: _, _) => none
  | r => some r

/-- The number a text starts with, after its sign. -/
def number? (negative : Bool) (s : List Char) : Option (JsonSyntax × List Char) := do
  let (whole, s) ← whole? s
  let (fraction, s) ← fraction? s
  let (exponent, s) ← exponent? s
  return (.number ⟨negative, whole, fraction, exponent⟩, s)

/-! ## Values -/

def afterWord? (word : List Char) (s : List Char) : Option (List Char) :=
  if word.isPrefixOf s then some (s.drop word.length) else none

mutual

/-- The value a text starts with, and the rest. -/
def value? : Nat → List Char → Option (JsonSyntax × List Char)
  | 0, _ => none
  | fuel + 1, s =>
    match skipSpace s with
    | 'n' :: cs => (afterWord? ['u', 'l', 'l'] cs).map fun r => (.null, r)
    | 't' :: cs => (afterWord? ['r', 'u', 'e'] cs).map fun r => (.bool true, r)
    | 'f' :: cs => (afterWord? ['a', 'l', 's', 'e'] cs).map fun r => (.bool false, r)
    | '"' :: cs => (stringBody cs).map fun r => (.string r.1, r.2)
    | '-' :: cs => number? true cs
    | '[' :: cs => match skipSpace cs with
      | ']' :: rest => some (.array [], rest)
      | _ => (items? fuel cs).map fun r => (.array r.1, r.2)
    | '{' :: cs => match skipSpace cs with
      | '}' :: rest => some (.object [], rest)
      | _ => (members? fuel cs).map fun r => (.object r.1, r.2)
    | cs => number? false cs

/-- One or more values with commas between them, up to the closing bracket. -/
def items? : Nat → List Char → Option (List JsonSyntax × List Char)
  | 0, _ => none
  | fuel + 1, s => match value? fuel s with
    | none => none
    | some (v, rest) => match skipSpace rest with
      | ',' :: cs => (items? fuel cs).map fun r => (v :: r.1, r.2)
      | ']' :: cs => some ([v], cs)
      | _ => none

/-- One or more members with commas between them, up to the closing brace. -/
def members? : Nat → List Char → Option (List (List Piece × JsonSyntax) × List Char)
  | 0, _ => none
  | fuel + 1, s => match skipSpace s with
    | '"' :: cs => match stringBody cs with
      | none => none
      | some (name, rest) => match skipSpace rest with
        | ':' :: cs => match value? fuel cs with
          | none => none
          | some (v, rest) => match skipSpace rest with
            | ',' :: cs => (members? fuel cs).map fun r => ((name, v) :: r.1, r.2)
            | '}' :: cs => some ([(name, v)], cs)
            | _ => none
        | _ => none
    | _ => none

end

/-- Reads a text that holds one value and nothing after it but blanks. -/
def read? (s : List Char) : Option JsonSyntax :=
  match value? (2 * s.length + 2) s with
  | some (v, rest) => if (skipSpace rest).isEmpty then some v else none
  | none => none

end JsonSyntax

end Phrasebook
