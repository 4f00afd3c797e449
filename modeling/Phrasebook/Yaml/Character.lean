/-!
# Characters of a YAML text

The classes of characters that the grammar tells apart. The end of the text counts as the end of a word and of a
line; the functions on lists of characters look at the first character that is left.
-/

namespace Phrasebook.Yaml

/-- A character that ends a line. -/
def isBreak (c : Char) : Bool :=
  c = '\n' || c = '\r' || c.toNat = 0x85 || c.toNat = 0x2028 || c.toNat = 0x2029

/-- A blank within a line. -/
def isGap (c : Char) : Bool := c = ' ' || c = '\t'

/-- A blank or the end of a line. -/
def isGapOrBreak (c : Char) : Bool := isGap c || isBreak c

/-- A letter, a digit, an underscore or a hyphen. -/
def isWordChar (c : Char) : Bool :=
  ('0' ≤ c && c ≤ '9') || ('a' ≤ c && c ≤ 'z') || ('A' ≤ c && c ≤ 'Z') || c = '_' || c = '-'

/-- A character that may stand in a text at all. -/
def isPrintable (c : Char) : Bool :=
  let n := c.toNat
  n = 0x9 || n = 0xA || n = 0xD || (0x20 ≤ n && n ≤ 0x7E) || n = 0x85 || (0xA0 ≤ n && n ≤ 0xD7FF)
    || (0xE000 ≤ n && n ≤ 0xFFFD) || (0x10000 ≤ n && n ≤ 0x10FFFF)

/-- The mark that may stand at the start of a line. -/
def byteOrderMark : Char := Char.ofNat 0xFEFF

def hexValue? (c : Char) : Option Nat :=
  if '0' ≤ c && c ≤ '9' then some (c.toNat - '0'.toNat)
  else if 'a' ≤ c && c ≤ 'f' then some (c.toNat - 'a'.toNat + 10)
  else if 'A' ≤ c && c ≤ 'F' then some (c.toNat - 'A'.toNat + 10)
  else none

/-! ## What is left of a text -/

/-- Whether the first character left satisfies a predicate. -/
def startsWhere (p : Char → Bool) : List Char → Bool
  | [] => false
  | c :: _ => p c

def atLineEnd : List Char → Bool
  | [] => true
  | c :: _ => isBreak c

def atWordEnd : List Char → Bool
  | [] => true
  | c :: _ => isGapOrBreak c

/-- Whether three equal characters and the end of a word stand here. -/
def atTripled (mark : Char) : List Char → Bool
  | a :: b :: c :: cs => a = mark && b = mark && c = mark && atWordEnd cs
  | _ => false

/-- Whether a line that separates documents starts here. -/
def atDocumentMark (s : List Char) : Bool := atTripled '-' s || atTripled '.' s

/-- The text that the end of a line stands for, and the number of its characters. -/
def breakText : List Char → List Char × Nat
  | '\r' :: '\n' :: _ => (['\n'], 2)
  | c :: _ =>
    if c = '\n' || c = '\r' || c.toNat = 0x85 then (['\n'], 1)
    else if isBreak c then ([c], 1)
    else ([], 0)
  | [] => ([], 0)

end Phrasebook.Yaml
