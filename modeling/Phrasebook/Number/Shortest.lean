import Phrasebook.Number.Binary64

/-!
# Shortest decimals

The decimal with the fewest digits that rounds to a given binary64 number, and among those the nearest one; a
tie goes to the even digit. The search compares exact quotients, grid after grid of growing precision.

A `Layout` says how the digits are written: where positional notation ends and how an exponent is signed.
-/

namespace Phrasebook

/-- The decimal `digits * 10 ^ exponent`. -/
structure Decimal where
  /-- The digits, as a natural number. -/
  digits : Nat
  exponent : Int
  deriving DecidableEq, Repr

namespace Shortest

/-! ## The interval that rounds to a number -/

/-- The upper end of the interval; a quarter of the mantissa's unit is one, so that both ends are natural numbers. -/
def upper (x : Binary64) : Nat := 4 * x.mantissa + 2

/-- The lower end: the numbers below a power of two lie twice as close. -/
def lower (x : Binary64) : Nat :=
  if x.mantissa = Nat.pow 2 52 && Binary64.minExponent < x.exponent then 4 * x.mantissa - 1
  else 4 * x.mantissa - 2

/-- The quarter of the mantissa's unit is `unitNum x / unitDen x`. -/
def unitNum (x : Binary64) : Nat := Nat.pow 2 (x.exponent - 2).toNat

/-- The quarter of the mantissa's unit is `unitNum x / unitDen x`. -/
def unitDen (x : Binary64) : Nat := Nat.pow 2 (2 - x.exponent).toNat

/-- Whether `a / b ≤ c / d`, or `<` where the end is left out. -/
def within (closed : Bool) (a b c d : Nat) : Bool :=
  if closed then a * d ≤ c * b else a * d < c * b

/-- Whether the decimal `digits * 10 ^ exponent` rounds to the number. -/
def rounds (x : Binary64) (d : Decimal) : Bool :=
  let closed := x.mantissa % 2 == 0
  let num := d.digits * Nat.pow 10 d.exponent.toNat
  let den := Nat.pow 10 (-d.exponent).toNat
  within closed (lower x * unitNum x) (unitDen x) num den
    && within closed num den (upper x * unitNum x) (unitDen x)

/-! ## The search -/

/-- The power of ten just above a number other than zero: `10 ^ (p - 1) ≤ x < 10 ^ p`. -/
def pointPlace (x : Binary64) : Int :=
  if x.den ≤ x.num then Binary64.digitCount (x.num / x.den)
  else 1 - (Binary64.digitCount ((x.den - 1) / x.num) : Int)

/-- The nearest decimal of `n` digits that rounds to the number, if there is one. -/
def candidate? (x : Binary64) (n : Nat) : Option Decimal :=
  let k : Int := pointPlace x - n
  let num := x.num * Nat.pow 10 (-k).toNat
  let den := x.den * Nat.pow 10 k.toNat
  let below := num / den
  let low : Decimal := ⟨below, k⟩
  let high : Decimal := ⟨below + 1, k⟩
  let nearest := if Binary64.roundQuotient num den = below then low else high
  -- The interval need not be centred on the number, so the neighbour further away may be the one that rounds.
  if rounds x nearest then some nearest
  else if rounds x low then some low
  else if rounds x high then some high
  else none

/-- The decimal with its last zeros moved into the exponent. -/
def normalize : Nat → Decimal → Decimal
  | 0, d => d
  | fuel + 1, d =>
    if d.digits ≠ 0 && d.digits % 10 = 0 then normalize fuel ⟨d.digits / 10, d.exponent + 1⟩ else d

/-- The greatest number of digits that a binary64 number needs. -/
def maxDigits : Nat := 17

/-- The shortest decimal that rounds to a number other than zero. -/
def decimal (x : Binary64) : Decimal :=
  let found := (List.range maxDigits).findSome? fun n => candidate? x (n + 1)
  normalize (maxDigits + 1) (found.getD ⟨0, 0⟩)

end Shortest

/-! ## Writing -/

/-- How the digits of a number are laid out. -/
structure Layout where
  /-- Positional notation is used for numbers of at least this power of ten. -/
  leastPlace : Int
  /-- Positional notation is used for numbers below this power of ten. -/
  greatestPlace : Int
  /-- Whether an exponent that is not negative has a plus sign. -/
  plusSign : Bool

namespace Layout

/-- The decimal digits of a natural number. -/
def natDigits (n : Nat) : List Char := Nat.toDigits 10 n

/-- Zeros in a row. -/
def zeros (n : Nat) : List Char := List.replicate n '0'

/-- The digits of a decimal in positional notation, with at least one digit on each side of the point. -/
def positional (digits : List Char) (place : Int) : List Char :=
  if place ≤ 0 then ['0', '.'] ++ zeros (-place).toNat ++ digits
  else if digits.length ≤ place.toNat then digits ++ zeros (place.toNat - digits.length) ++ ['.', '0']
  else digits.take place.toNat ++ ['.'] ++ digits.drop place.toNat

/-- The digits of a decimal in exponential notation, with one digit before the point. -/
def exponential (plusSign : Bool) (digits : List Char) (place : Int) : List Char :=
  let power := place - 1
  let sign := if power < 0 then ['-'] else if plusSign then ['+'] else []
  let point := if digits.length ≤ 1 then [] else '.' :: digits.drop 1
  digits.take 1 ++ point ++ ['e'] ++ sign ++ natDigits power.natAbs

/-- The text of a number without its sign. -/
def magnitude (l : Layout) (x : Binary64) : List Char :=
  if x.isZero then ['0', '.', '0']
  else
    let d := Shortest.decimal x
    let digits := natDigits d.digits
    let place : Int := d.exponent + digits.length
    if l.leastPlace < place && place ≤ l.greatestPlace then positional digits place
    else exponential l.plusSign digits place

def text (l : Layout) (x : Binary64) : List Char :=
  if x.negative then '-' :: l.magnitude x else l.magnitude x

end Layout

end Phrasebook
