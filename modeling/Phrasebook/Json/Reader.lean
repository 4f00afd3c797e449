import Phrasebook.Json.Basic
import Phrasebook.Json.Syntax

/-!
# Reading values

From a written value to a value. A written string must pair its surrogate code units, a number must not be too
large for its class, and arrays and objects nest at most `maxDepth` deep.

A number is an integer when it has neither fraction nor exponent and fits in 64 bits; the number `-0` does not.
Otherwise its digits are gathered into 64 bits, the digits that no longer fit are dropped, and the result is
scaled by a power of ten.
-/

namespace Phrasebook

namespace JsonSyntax

/-! ## Strings -/

/-- Whether a code unit is the first of a pair. -/
def isHighSurrogate (n : Nat) : Bool := 0xD800 ≤ n && n ≤ 0xDBFF

/-- Whether a code unit is the second of a pair. -/
def isLowSurrogate (n : Nat) : Bool := 0xDC00 ≤ n && n ≤ 0xDFFF

/-- The character of a pair of code units. -/
def pairedChar (high low : Nat) : Char :=
  Char.ofNat ((high - 0xD800) * 0x400 + (low - 0xDC00) + 0x10000)

/-- The characters of a written string, unless a surrogate stands alone. -/
def chars? : List Piece → Option (List Char)
  | [] => some []
  | .char c :: ps => (chars? ps).map (c :: ·)
  | .unit h :: .unit l :: ps =>
    if isHighSurrogate h then
      if isLowSurrogate l then (chars? ps).map (pairedChar h l :: ·) else none
    else if isLowSurrogate h then none
    else (chars? (.unit l :: ps)).map (Char.ofNat h :: ·)
  | .unit h :: ps =>
    if isHighSurrogate h || isLowSurrogate h then none else (chars? ps).map (Char.ofNat h :: ·)

def text? (ps : List Piece) : Option String := (chars? ps).map String.ofList

/-! ## Numbers -/

/-- The greatest number of 64 bits. -/
def maxSignificand : Nat := Nat.pow 2 64 - 1

/-- The significand with as many digits appended as fit in 64 bits, and the number of digits left over. -/
def gather : Nat → List Nat → Nat × Nat
  | significand, [] => (significand, 0)
  | significand, d :: ds =>
    if significand * 10 + d ≤ maxSignificand then gather (significand * 10 + d) ds
    else (significand, ds.length + 1)

def natOfDigits (ds : List Nat) : Nat := ds.foldl (fun n d => n * 10 + d) 0

/-- The power of ten an exponent stands for. -/
def exponentValue : Option (Bool × List Nat) → Int
  | none => 0
  | some (true, ds) => -(natOfDigits ds : Int)
  | some (false, ds) => natOfDigits ds

/-- The number that a numeral stands for, unless it is too large. -/
def Numeral.value? (n : Numeral) : Option JsonNumber :=
  let (significand, dropped) := gather 0 n.whole
  if n.fraction.isNone && n.exponent.isNone && dropped = 0
      && (!n.negative || (0 < significand && significand ≤ Nat.pow 2 63)) then
    some (.integer (if n.negative then -(significand : Int) else significand))
  else
    let fraction := n.fraction.getD []
    let (significand, left) := gather significand fraction
    let exponent : Int := (dropped : Int) - (fraction.length - left : Nat) + exponentValue n.exponent
    (Binary64.scaled n.negative significand exponent).map .float

/-! ## Values -/

/-- How deep arrays and objects may nest. -/
def maxDepth : Nat := 127

mutual

/-- The value of a written value that nests at most `depth` deep. -/
def toJson? (depth : Nat) : JsonSyntax → Option Json
  | .null => some .null
  | .bool b => some (.bool b)
  | .number n => n.value?.map .number
  | .string ps => (text? ps).map .string
  | .array items => if depth = 0 then none else (itemsToJson? (depth - 1) items).map .array
  | .object members => if depth = 0 then none else (membersToJson? (depth - 1) [] members).map .object
termination_by structural s => s

/-- The values of a list of written values. -/
def itemsToJson? (depth : Nat) : List JsonSyntax → Option (List Json)
  | [] => some []
  | s :: ss => match toJson? depth s, itemsToJson? depth ss with
    | some v, some vs => some (v :: vs)
    | _, _ => none
termination_by structural ss => ss

/-- The fields of an object after the fields read so far; the last value of a name counts. -/
def membersToJson? (depth : Nat) (fields : List (String × Json)) :
    List (List Piece × JsonSyntax) → Option (List (String × Json))
  | [] => some fields
  | (name, s) :: ms => match text? name, toJson? depth s with
    | some n, some v => membersToJson? depth (Json.setField n v fields) ms
    | _, _ => none
termination_by structural ms => ms

end

end JsonSyntax

namespace Json

/-- Reads a text that holds one value. -/
def read? (s : String) : Option Json :=
  (JsonSyntax.read? s.toList).bind (JsonSyntax.toJson? JsonSyntax.maxDepth)

end Json

end Phrasebook
