/-!
# Binary floating point with 53 bits

Finite numbers of the binary64 format, as a sign, a mantissa and an exponent of two. Every operation computes its
exact result as a quotient of natural numbers and rounds it once, to nearest, a tie to the even mantissa.

- `ofRatio` rounds a quotient; it has no result when the quotient is too large.
- `mul` and `div` round the exact product and quotient.
- `scaled` multiplies or divides by a rounded power of ten, `ofDecimal` rounds an exact decimal.
-/

namespace Phrasebook

/-- A finite binary64 number: `mantissa * 2 ^ exponent`, with a sign that a zero has too. -/
structure Binary64 where
  /-- Whether the sign is minus. -/
  negative : Bool
  /-- The mantissa, below `2 ^ 53`. -/
  mantissa : Nat
  exponent : Int
  deriving DecidableEq, Repr, Inhabited

namespace Binary64

/-! ## Rounding -/

/-- The natural number nearest to a quotient; of two equally near the even one. -/
def roundQuotient (num den : Nat) : Nat :=
  let q := num / den
  let r := num % den
  if 2 * r < den then q else if den < 2 * r then q + 1 else q + q % 2

def minExponent : Int := -1074

def maxExponent : Int := 971

/-- The numerator of `num / den * 2 ^ (-e)`. -/
def scaleNum (num : Nat) (e : Int) : Nat := num * Nat.pow 2 (-e).toNat

/-- The denominator of `num / den * 2 ^ (-e)`. -/
def scaleDen (den : Nat) (e : Int) : Nat := den * Nat.pow 2 e.toNat

/-- The exponent that gives the nearest mantissa of a positive quotient its 53 bits. -/
def exponentOf (num den : Nat) : Int :=
  -- The quotient of the leading powers of two is at most one place too high.
  let e : Int := (num.log2 : Int) - den.log2 - 52
  let e := if scaleNum num e / scaleDen den e < Nat.pow 2 52 then e - 1 else e
  max e minExponent

/-- The binary64 number nearest to a quotient, unless the quotient is too large for the format. -/
def ofRatio (negative : Bool) (num den : Nat) : Option Binary64 :=
  if num = 0 then some ⟨negative, 0, minExponent⟩
  else
    let e := exponentOf num den
    let m := roundQuotient (scaleNum num e) (scaleDen den e)
    let r : Binary64 := if m < Nat.pow 2 53 then ⟨negative, m, e⟩ else ⟨negative, Nat.pow 2 52, e + 1⟩
    if r.exponent ≤ maxExponent then some r else none

def zero (negative : Bool) : Binary64 := ⟨negative, 0, minExponent⟩

def isZero (x : Binary64) : Bool := x.mantissa == 0

/-- The number without its sign is `num x / den x`. -/
def num (x : Binary64) : Nat := x.mantissa * Nat.pow 2 x.exponent.toNat

/-- The number without its sign is `num x / den x`. -/
def den (x : Binary64) : Nat := Nat.pow 2 (-x.exponent).toNat

/-! ## Arithmetic -/

/-- The rounded product. -/
def mul (x y : Binary64) : Option Binary64 :=
  ofRatio (x.negative != y.negative) (x.num * y.num) (x.den * y.den)

/-- The rounded quotient by a number other than zero. -/
def div (x y : Binary64) : Option Binary64 :=
  ofRatio (x.negative != y.negative) (x.num * y.den) (x.den * y.num)

/-- The rounded natural number. -/
def ofNat (n : Nat) : Option Binary64 := ofRatio false n 1

def tenPow (k : Nat) : Option Binary64 := ofNat (Nat.pow 10 k)

/-! ## Decimals -/

/-- The greatest power of ten that the format holds. -/
def maxTenPow : Nat := 308

/-- The number divided by the greatest power of ten as often as given, or until it is zero. -/
def divMaxTenPow : Nat → Binary64 → Option Binary64
  | 0, x => some x
  | steps + 1, x =>
    if x.isZero then some x else ((tenPow maxTenPow).bind x.div).bind (divMaxTenPow steps)

/-- The number divided by a power of ten, in steps that the format holds. -/
def divTenPow (x : Binary64) (k : Nat) : Option Binary64 :=
  let steps := (k - 1) / maxTenPow
  (divMaxTenPow steps x).bind fun y => (tenPow (k - maxTenPow * steps)).bind y.div

/-- A rounded significand times a rounded power of ten, rounded again. -/
def scaled (negative : Bool) (significand : Nat) (exponent : Int) : Option Binary64 :=
  (ofNat significand).bind fun f =>
    let magnitude :=
      if 0 ≤ exponent then
        if exponent ≤ maxTenPow then (tenPow exponent.toNat).bind f.mul
        else if f.isZero then some f else none
      else f.divTenPow (-exponent).toNat
    magnitude.map fun x => { x with negative := negative }

/-- The number of decimal digits of a natural number; zero has none. -/
def digitCount (n : Nat) : Nat := if n = 0 then 0 else (Nat.toDigits 10 n).length

/-- The number nearest to `significand * 10 ^ exponent`, unless that is too large for the format. -/
def ofDecimal (negative : Bool) (significand : Nat) (exponent : Int) : Option Binary64 :=
  let magnitude : Int := digitCount significand + exponent
  -- Far outside the format the powers of ten would be large and decide nothing.
  if significand = 0 || magnitude < -400 then some (zero negative)
  else if 400 < magnitude then none
  else ofRatio negative (significand * Nat.pow 10 exponent.toNat) (Nat.pow 10 (-exponent).toNat)

end Binary64

end Phrasebook
