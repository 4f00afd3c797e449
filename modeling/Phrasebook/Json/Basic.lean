import Phrasebook.Number.Shortest

/-!
# Values of the data format

A value is null, a boolean, a number, a text, an array or an object. A number keeps the class it was written in:
an integer of 64 bits or a binary64 number. The fields of an object stand in the order of their first writing.
-/

namespace Phrasebook

/-- A number of the data format. -/
inductive JsonNumber where
  /-- A number written without fraction and exponent that fits in 64 bits, with or without a sign. -/
  | integer (value : Int)
  /-- Any other number. -/
  | float (value : Binary64)
  deriving DecidableEq, Repr, Inhabited

/-- A value of the data format. -/
inductive Json where
  /-- The value `null`. -/
  | null
  /-- A truth value. -/
  | bool (value : Bool)
  | number (value : JsonNumber)
  /-- A text. -/
  | string (value : String)
  /-- A list of values. -/
  | array (items : List Json)
  /-- Values under names, each name once. -/
  | object (fields : List (String × Json))
  deriving BEq, Repr, Inhabited

namespace JsonNumber

/-- Positional between `1e-5` and `1e16`, and a plus sign in front of a positive exponent. -/
def layout : Layout := ⟨-5, 16, true⟩

def integerText (n : Int) : List Char :=
  if n < 0 then '-' :: Layout.natDigits n.natAbs else Layout.natDigits n.natAbs

/-- The text of a number: it reads back as the same number of the same class. -/
def text : JsonNumber → List Char
  | .integer n => integerText n
  | .float x => layout.text x

/-- The least integer of 64 bits with a sign. -/
def minInteger : Int := -Int.pow 2 63

/-- The greatest integer of 64 bits with a sign. -/
def maxInteger : Int := Int.pow 2 63 - 1

/-- The integer a number is, when it fits in 64 bits with a sign. -/
def asInteger? : JsonNumber → Option Int
  | .integer n => if minInteger ≤ n && n ≤ maxInteger then some n else none
  | .float _ => none

end JsonNumber

namespace Json

/-- The fields with the value of one field set; a new name comes last. -/
def setField (name : String) (value : Json) : List (String × Json) → List (String × Json)
  | [] => [(name, value)]
  | (n, v) :: fs => if n = name then (n, value) :: fs else (n, v) :: setField name value fs

def field? (name : String) : List (String × Json) → Option Json
  | [] => none
  | (n, v) :: fs => if n = name then some v else field? name fs

end Json

end Phrasebook
