import Phrasebook.Json.Basic
import Mathlib.Algebra.Group.Nat.Defs

/-!
# Plain decimals

A number can also be written as a plain decimal: without an exponent, and with a point only where digits stand
behind it. This is compared with the text that a number has in the data format.

## Layers

- `candidate?_eq_some`, `whole?_normalize`: what the search for the shortest decimal finds.
- `Binary64.plainText`: the plain decimal of a number; `plainText_eq_text_iff` says which numbers with a fraction
  are written alike.
- `Binary64.ofInt`: the number nearest to an integer; `plainText_ofInt_eq_iff` says which integers are written alike,
  and by `wholeValue?_ofInt` these are all up to `2 ^ 53`.
-/

namespace Phrasebook

/-! ## §1 Digits -/

/-- The integer that a decimal stands for, when it has no digits behind the point. -/
def Decimal.whole? (d : Decimal) : Option Nat :=
  if 0 ≤ d.exponent then some (d.digits * 10 ^ d.exponent.toNat) else none

namespace Layout

theorem natDigits_ne_nil (n : Nat) : natDigits n ≠ [] := by
  unfold natDigits
  rw [Nat.toDigits_eq_if (by decide)]
  split
  · exact List.cons_ne_nil _ _
  · exact List.append_ne_nil_of_right_ne_nil _ (List.cons_ne_nil _ _)

theorem isDigit_of_mem_natDigits {n : Nat} {c : Char} (h : c ∈ natDigits n) : c.isDigit = true :=
  Nat.isDigit_of_mem_toDigits (by decide) (by decide) h

theorem natDigits_injective {m n : Nat} (h : natDigits m = natDigits n) : m = n :=
  calc
    m = Nat.ofDigitChars 10 (natDigits m) 0 := Nat.ofDigitChars_ten_toDigits.symm
    _ = Nat.ofDigitChars 10 (natDigits n) 0 := by rw [h]
    _ = n := Nat.ofDigitChars_ten_toDigits

/-- A power of ten puts zeros behind the digits. -/
theorem natDigits_mul_ten_pow {n : Nat} (h : 0 < n) (k : Nat) : natDigits (n * 10 ^ k) = natDigits n ++ zeros k := by
  -- By induction on the zeros: the last digit of a multiple of ten is a zero.
  induction k with
  | zero => simp [zeros]
  | succ k ih =>
    have hlarge : 10 ≤ n * 10 ^ (k + 1) := by
      have hpow : 0 < 10 ^ k := Nat.pow_pos (by decide)
      have hone : 1 * 1 ≤ n * 10 ^ k := Nat.mul_le_mul h hpow
      rw [Nat.pow_succ, ← Nat.mul_assoc]
      omega
    have hdiv : n * 10 ^ (k + 1) / 10 = n * 10 ^ k := by
      rw [Nat.pow_succ, ← Nat.mul_assoc, Nat.mul_div_cancel _ (by decide)]
    have hmod : n * 10 ^ (k + 1) % 10 = 0 := by
      rw [Nat.pow_succ, ← Nat.mul_assoc, Nat.mul_mod_left]
    have hdigits := Nat.toDigits_of_base_le (by decide) hlarge
    rw [hdiv, hmod] at hdigits
    rw [natDigits, hdigits, ← natDigits, ih, List.append_assoc, zeros, zeros, List.replicate_succ']
    rfl

/-! ## §2 Points -/

/-- The digits of a decimal without exponent, with a point only where digits stand behind it. -/
def plain (digits : List Char) (place : Int) : List Char :=
  if digits.length ≤ place.toNat then digits ++ zeros (place.toNat - digits.length) else positional digits place

/-- Positional notation with digits behind the point is plain; without them it has a zero there. -/
theorem plain_eq_positional_iff {digits : List Char} (h : digits ≠ []) (place : Int) :
    plain digits place = positional digits place ↔ place < digits.length := by
  have hlength : 0 < digits.length := List.length_pos_iff.mpr h
  unfold plain
  split
  · -- A zero behind the point makes the text longer.
    have hpoint : positional digits place = digits ++ zeros (place.toNat - digits.length) ++ ['.', '0'] := by
      rw [positional, if_neg (by omega), if_pos (by omega)]
    refine ⟨fun heq => ?_, fun hlt => by omega⟩
    have hsame := congrArg List.length (heq.trans hpoint)
    have hlonger : (digits ++ zeros (place.toNat - digits.length) ++ ['.', '0']).length
        = (digits ++ zeros (place.toNat - digits.length)).length + 2 := List.length_append
    omega
  · exact iff_of_true rfl (by omega)

theorem exponent_not_mem_plain {digits : List Char} (h : 'e' ∉ digits) (place : Int) : 'e' ∉ plain digits place := by
  have htake : ∀ n, 'e' ∉ digits.take n := fun n hmem => h (List.mem_of_mem_take hmem)
  have hdrop : ∀ n, 'e' ∉ digits.drop n := fun n hmem => h (List.mem_of_mem_drop hmem)
  unfold plain positional zeros
  split
  · simp [h]
  · split
    · simp [h]
    · simp [htake, hdrop]

theorem exponent_mem_exponential (plusSign : Bool) (digits : List Char) (place : Int) :
    'e' ∈ exponential plusSign digits place := by
  simp [exponential]

/-- A plain decimal without a point has its digits up to its last place. -/
theorem plain_of_le {digits : List Char} {place : Int} (h : digits.length ≤ place) :
    plain digits place = digits ++ zeros (place.toNat - digits.length) :=
  if_pos (by omega)

/-- With digits behind the point there is a point. -/
theorem point_mem_plain {digits : List Char} {place : Int} (h : place < digits.length) (hd : digits ≠ []) :
    '.' ∈ plain digits place := by
  have hlength : 0 < digits.length := List.length_pos_iff.mpr hd
  rw [(plain_eq_positional_iff hd place).mpr h, positional]
  split
  · simp
  · rw [if_neg (by omega)]
    simp

end Layout

namespace Binary64

/-- The place of the point among the digits of the shortest decimal. -/
def place (x : Binary64) : Int :=
  (Shortest.decimal x).exponent + (Layout.natDigits (Shortest.decimal x).digits).length

/-- The plain decimal of a number without its sign. -/
def plainMagnitude (x : Binary64) : List Char :=
  if x.isZero then ['0'] else Layout.plain (Layout.natDigits (Shortest.decimal x).digits) x.place

/-- The plain decimal of a number. -/
def plainText (x : Binary64) : List Char :=
  if x.negative then '-' :: x.plainMagnitude else x.plainMagnitude

/-- Whether the text of a number in the data format is its plain decimal: digits stand behind the point, and the
number is neither so small nor so large that it has an exponent. -/
def ShownPlain (x : Binary64) : Prop :=
  x.isZero = false ∧ (Shortest.decimal x).exponent < 0 ∧ -5 < x.place ∧ x.place ≤ 16

theorem plainMagnitude_eq_magnitude_iff (x : Binary64) :
    x.plainMagnitude = JsonNumber.layout.magnitude x ↔ x.ShownPlain := by
  have hdigits := Layout.natDigits_ne_nil (Shortest.decimal x).digits
  have hexponent : 'e' ∉ Layout.natDigits (Shortest.decimal x).digits := fun hmem =>
    absurd (Layout.isDigit_of_mem_natDigits hmem) (by decide)
  have hplace : x.place < (Layout.natDigits (Shortest.decimal x).digits).length
      ↔ (Shortest.decimal x).exponent < 0 := by
    unfold place
    omega
  unfold plainMagnitude Layout.magnitude ShownPlain
  cases hzero : x.isZero with
  | true => simp
  | false =>
    simp only [Bool.false_eq_true, ↓reduceIte, true_and, Bool.and_eq_true, decide_eq_true_eq]
    change Layout.plain _ x.place
      = (if -5 < x.place ∧ x.place ≤ 16 then Layout.positional _ x.place else Layout.exponential _ _ x.place) ↔ _
    split
    · rename_i hrange
      rw [Layout.plain_eq_positional_iff hdigits, hplace]
      exact ⟨fun hlt => ⟨hlt, hrange⟩, fun h => h.1⟩
    · -- An exponent is never plain.
      rename_i hrange
      refine iff_of_false (fun heq => ?_) fun h => hrange h.2
      exact Layout.exponent_not_mem_plain hexponent x.place (heq ▸ Layout.exponent_mem_exponential ..)

/-- **Numbers with a fraction** are written alike in both ways exactly when digits stand behind the point and there is
no exponent. -/
theorem plainText_eq_text_iff (x : Binary64) : x.plainText = (JsonNumber.float x).text ↔ x.ShownPlain := by
  rw [← plainMagnitude_eq_magnitude_iff, plainText, JsonNumber.text, Layout.text]
  cases x.negative <;> simp

end Binary64

/-! ## §3 The search -/

namespace Shortest

variable {x : Binary64} {d : Decimal}

/-- A candidate rounds to the number, and its last digit has the place that belongs to its length. -/
theorem candidate?_eq_some {n : Nat} (h : candidate? x n = some d) :
    rounds x d = true ∧ d.exponent = pointPlace x - n := by
  -- The nearest one, the one below and the one above are tried in turn.
  unfold candidate? at h
  grind

/-- Zero rounds to no other number. -/
theorem digits_pos_of_rounds (hx : 0 < x.mantissa) (h : rounds x d = true) : 0 < d.digits := by
  apply Nat.pos_of_ne_zero
  intro hzero
  have hlower : 0 < lower x * unitNum x := by
    have hunit : 0 < unitNum x := Nat.pow_pos (by decide)
    refine Nat.mul_pos ?_ hunit
    unfold lower
    split <;> omega
  have hpow : 0 < lower x * unitNum x * Nat.pow 10 (-d.exponent).toNat := Nat.mul_pos hlower (Nat.pow_pos (by decide))
  simp only [rounds, hzero, Nat.zero_mul, within, Nat.not_lt_zero, Nat.le_zero_eq, Nat.ne_of_gt hpow, decide_false,
    ite_self, Bool.false_and, Bool.false_eq_true] at h

/-- Moving zeros into the exponent keeps the value. -/
theorem whole?_normalize {m : Nat} (fuel : Nat) (h : d.whole? = some m) : (normalize fuel d).whole? = some m := by
  induction fuel generalizing d with
  | zero => exact h
  | succ fuel ih =>
    unfold normalize
    split
    · rename_i hlast
      simp only [ne_eq, Bool.and_eq_true, decide_eq_true_eq] at hlast
      apply ih
      unfold Decimal.whole? at h ⊢
      split at h
      · -- The last digit is zero, so the tenth part times ten is the number again.
        rename_i hexponent
        have hpow : (d.exponent + 1).toNat = d.exponent.toNat + 1 := by omega
        have hten : d.digits / 10 * 10 = d.digits := by omega
        have hnext : 0 ≤ d.exponent + 1 := by omega
        rw [← h]
        show (if 0 ≤ d.exponent + 1 then some (d.digits / 10 * 10 ^ (d.exponent + 1).toNat) else none) = _
        rw [if_pos hnext, hpow, Nat.pow_succ, Nat.mul_comm (10 ^ _), ← Nat.mul_assoc, hten]
      · cases h
    · exact h

theorem digits_pos_normalize (fuel : Nat) (h : 0 < d.digits) : 0 < (normalize fuel d).digits := by
  induction fuel generalizing d with
  | zero => exact h
  | succ fuel ih =>
    unfold normalize
    split
    · rename_i hlast
      simp only [ne_eq, Bool.and_eq_true, decide_eq_true_eq] at hlast
      apply ih
      show 0 < d.digits / 10
      omega
    · exact h

/-- The search finds a decimal with digits, or nothing at all. -/
theorem digits_pos_decimal (hx : 0 < x.mantissa) : decimal x = ⟨0, 0⟩ ∨ 0 < (decimal x).digits := by
  unfold decimal
  simp only
  cases hfound : (List.range maxDigits).findSome? fun n => candidate? x (n + 1) with
  | none => exact .inl rfl
  | some d =>
    obtain ⟨n, -, hn⟩ := List.exists_of_findSome?_eq_some hfound
    exact .inr (digits_pos_normalize _ (digits_pos_of_rounds hx (candidate?_eq_some hn).1))

/-- The first candidate is at most as long as any other one. -/
theorem exists_candidate_of_isSome {n : Nat} (hn : n < maxDigits) (h : (candidate? x (n + 1)).isSome) :
    ∃ m ≤ n, ∃ d, candidate? x (m + 1) = some d ∧ decimal x = normalize (maxDigits + 1) d := by
  -- The search stops within its first `n + 1` numbers of digits, whatever comes behind them.
  have hsplit : List.range maxDigits
      = List.range (n + 1) ++ (List.range (maxDigits - (n + 1))).map (n + 1 + ·) := by
    rw [← List.range_add]
    congr 1
    omega
  have hsome : ((List.range (n + 1)).findSome? fun n => candidate? x (n + 1)).isSome := by
    rw [List.findSome?_isSome_iff]
    exact ⟨n, List.mem_range.mpr (Nat.lt_succ_self n), h⟩
  obtain ⟨d, hd⟩ := Option.isSome_iff_exists.mp hsome
  obtain ⟨m, hm, hcandidate⟩ := List.exists_of_findSome?_eq_some hd
  refine ⟨m, Nat.le_of_lt_succ (List.mem_range.mp hm), d, hcandidate, ?_⟩
  unfold decimal
  rw [hsplit, List.findSome?_append, hd]
  rfl

end Shortest

/-! ## §4 Integers -/

namespace Binary64

/-- The number nearest to an integer. -/
def ofInt (n : Int) : Binary64 := { (ofNat n.natAbs).getD (zero false) with negative := n < 0 }

/-- The natural number that the plain decimal of a number without its sign stands for, if it stands for one. -/
def wholeValue? (x : Binary64) : Option Nat :=
  if x.isZero then some 0 else (Shortest.decimal x).whole?

theorem plainMagnitude_eq_natDigits_iff (x : Binary64) (m : Nat) :
    x.plainMagnitude = Layout.natDigits m ↔ x.wholeValue? = some m := by
  unfold plainMagnitude wholeValue?
  cases hzero : x.isZero with
  | true =>
    simp only [↓reduceIte, Option.some.injEq]
    refine ⟨fun h => ?_, fun h => ?_⟩
    · exact Layout.natDigits_injective h
    · subst h
      rfl
  | false =>
    have hx : 0 < x.mantissa := by
      apply Nat.pos_of_ne_zero
      simpa [isZero] using hzero
    have hne := Layout.natDigits_ne_nil (Shortest.decimal x).digits
    simp only [Bool.false_eq_true, ↓reduceIte, Decimal.whole?]
    split
    · -- Without digits behind the point, the exponent is the number of zeros behind the digits.
      rename_i hexponent
      have hzeros : x.place.toNat - (Layout.natDigits (Shortest.decimal x).digits).length
          = (Shortest.decimal x).exponent.toNat := by
        unfold place
        omega
      have hplain : Layout.plain (Layout.natDigits (Shortest.decimal x).digits) x.place
          = Layout.natDigits ((Shortest.decimal x).digits * 10 ^ (Shortest.decimal x).exponent.toNat) := by
        rw [Layout.plain_of_le (by unfold place; omega), hzeros]
        rcases Shortest.digits_pos_decimal hx with hdecimal | hpos
        · rw [hdecimal]
          rfl
        · rw [Layout.natDigits_mul_ten_pow hpos]
      rw [hplain, Option.some.injEq]
      exact ⟨Layout.natDigits_injective, congrArg Layout.natDigits⟩
    · -- No natural number is written with a point.
      rename_i hexponent
      refine iff_of_false (fun heq => ?_) nofun
      have hpoint := Layout.point_mem_plain (by unfold place; omega : x.place < _) hne
      rw [heq] at hpoint
      exact absurd (Layout.isDigit_of_mem_natDigits hpoint) (by decide)

/-- **Integers** are written like the numbers nearest to them exactly when the shortest decimals of these are the
integers. -/
theorem plainText_ofInt_eq_iff (n : Int) :
    (ofInt n).plainText = (JsonNumber.integer n).text ↔ (ofInt n).wholeValue? = some n.natAbs := by
  rw [← plainMagnitude_eq_natDigits_iff, plainText, JsonNumber.text, JsonNumber.integerText]
  have hsign : (ofInt n).negative = decide (n < 0) := rfl
  rw [hsign]
  by_cases h : n < 0
  · simp [h]
  · simp [h]

/-! ## §5 Integers without rounding -/

theorem roundQuotient_mul (n : Nat) {den : Nat} (h : 0 < den) : roundQuotient (n * den) den = n := by
  simp [roundQuotient, Nat.mul_div_cancel n h, h]

/-- A natural number of at most 53 bits is not rounded. -/
theorem ofNat_of_lt {n : Nat} (hpos : 0 < n) (h : n < 2 ^ 53) :
    ofNat n = some ⟨false, n * 2 ^ (52 - n.log2), -((52 - n.log2 : Nat) : Int)⟩ := by
  have hne : n ≠ 0 := Nat.ne_of_gt hpos
  have hlog : n.log2 ≤ 52 := Nat.le_of_lt_succ ((Nat.log2_lt hne).mpr h)
  generalize hk : 52 - n.log2 = k
  have hsum : n.log2 + k = 52 := by omega
  -- Shifted to 53 binary digits, the number is the significand.
  have hlow : 2 ^ 52 ≤ n * 2 ^ k := by
    calc
      2 ^ 52 = 2 ^ n.log2 * 2 ^ k := by rw [← Nat.pow_add, hsum]
      _ ≤ n * 2 ^ k := Nat.mul_le_mul_right _ (Nat.log2_self_le hne)
  have hhigh : n * 2 ^ k < 2 ^ 53 := by
    calc
      n * 2 ^ k < 2 ^ (n.log2 + 1) * 2 ^ k := Nat.mul_lt_mul_of_pos_right Nat.lt_log2_self (Nat.pow_pos (by decide))
      _ = 2 ^ 53 := by
        rw [← Nat.pow_add]
        congr 1
        omega
  have hnum : scaleNum n (-(k : Int)) = n * 2 ^ k := by simp [scaleNum]
  have hden : scaleDen 1 (-(k : Int)) = 1 := by simp [scaleDen]
  have hexponent : exponentOf n 1 = -(k : Int) := by
    have hfirst : (n.log2 : Int) - (Nat.log2 1 : Nat) - 52 = -(k : Int) := by
      have hone : Nat.log2 1 = 0 := by decide
      rw [hone]
      omega
    have hfull : ¬ n * 2 ^ k < Nat.pow 2 52 := Nat.not_lt.mpr hlow
    unfold exponentOf
    simp only [hfirst, hnum, hden, Nat.div_one]
    rw [if_neg hfull, minExponent]
    omega
  -- The quotient is exact, so nothing is rounded.
  have hround := roundQuotient_mul (n * 2 ^ k) Nat.one_pos
  rw [Nat.mul_one] at hround
  have hfits : n * 2 ^ k < Nat.pow 2 53 := hhigh
  unfold ofNat ofRatio
  simp only [hne, ↓reduceIte, hexponent, hnum, hden, hround]
  rw [if_pos hfits, if_pos (by simp only [maxExponent]; omega)]

end Binary64

namespace Shortest

theorem within_of_lt (closed : Bool) {a b c d : Nat} (h : a * d < c * b) : within closed a b c d = true := by
  cases closed <;> simp [within] <;> omega

theorem le_of_within {closed : Bool} {a b c d : Nat} (h : within closed a b c d = true) : a * d ≤ c * b := by
  cases closed <;> simp [within] at h <;> omega

section Whole

variable {n : Nat} (hn : 0 < n) (s : Bool) (k : Nat)
include hn

/-- Of the decimals without digits behind the point, only a natural number itself rounds to it. -/
theorem rounds_ofNat_iff {d : Decimal} (hd : 0 ≤ d.exponent) :
    rounds ⟨s, n * 2 ^ k, -(k : Int)⟩ d = true ↔ d.whole? = some n := by
  have hpow : 0 < 2 ^ k := Nat.pow_pos (by decide)
  have hmantissa : 0 < n * 2 ^ k := Nat.mul_pos hn hpow
  have hunitNum : unitNum ⟨s, n * 2 ^ k, -(k : Int)⟩ = 1 := by
    have hexponent : (-(k : Int) - 2).toNat = 0 := by omega
    simp [unitNum, hexponent]
  have hunitDen : unitDen ⟨s, n * 2 ^ k, -(k : Int)⟩ = 4 * 2 ^ k := by
    have hexponent : (2 - -(k : Int)).toNat = k + 2 := by omega
    simp only [unitDen, hexponent]
    rw [Nat.pow_eq, Nat.pow_add, Nat.mul_comm]
  have hlower : 4 * (n * 2 ^ k) - 2 ≤ lower ⟨s, n * 2 ^ k, -(k : Int)⟩ ∧
      lower ⟨s, n * 2 ^ k, -(k : Int)⟩ < 4 * (n * 2 ^ k) := by
    simp only [lower]
    split <;> omega
  have hupper : upper ⟨s, n * 2 ^ k, -(k : Int)⟩ = 4 * (n * 2 ^ k) + 2 := rfl
  have hden : Nat.pow 10 (-d.exponent).toNat = 1 := by
    have hexponent : (-d.exponent).toNat = 0 := by omega
    rw [hexponent]
  rw [Decimal.whole?, if_pos hd, Option.some.injEq]
  simp only [rounds, hunitNum, hunitDen, hden, hupper, Nat.mul_one, Bool.and_eq_true]
  show _ ↔ d.digits * Nat.pow 10 d.exponent.toNat = n
  generalize d.digits * Nat.pow 10 d.exponent.toNat = v
  refine ⟨fun h => ?_, fun h => ?_⟩
  · -- The interval is less than one unit wide on each side, so another integer lies outside.
    have hlow := le_of_within h.1
    have hhigh := le_of_within h.2
    rcases Nat.lt_trichotomy v n with hlt | heq | hlt
    · have hbelow := Nat.mul_le_mul_right (2 ^ k) (Nat.succ_le_of_lt hlt)
      rw [Nat.succ_mul] at hbelow
      rw [Nat.mul_left_comm] at hlow
      omega
    · exact heq
    · have habove := Nat.mul_le_mul_right (2 ^ k) (Nat.succ_le_of_lt hlt)
      rw [Nat.succ_mul] at habove
      rw [Nat.mul_left_comm] at hhigh
      omega
  · rw [h]
    refine ⟨within_of_lt _ ?_, within_of_lt _ ?_⟩
    · rw [Nat.mul_left_comm n]
      omega
    · rw [Nat.mul_left_comm n]
      omega

theorem pointPlace_ofNat : pointPlace ⟨s, n * 2 ^ k, -(k : Int)⟩ = (Layout.natDigits n).length := by
  have hpow : 0 < 2 ^ k := Nat.pow_pos (by decide)
  have hnum : Binary64.num ⟨s, n * 2 ^ k, -(k : Int)⟩ = n * 2 ^ k := by simp [Binary64.num]
  have hden : Binary64.den ⟨s, n * 2 ^ k, -(k : Int)⟩ = 2 ^ k := by simp [Binary64.den]
  have hle : 2 ^ k ≤ n * 2 ^ k := Nat.le_mul_of_pos_left _ hn
  rw [pointPlace, hnum, hden, if_pos hle, Nat.mul_div_cancel n hpow, Binary64.digitCount, if_neg (Nat.ne_of_gt hn)]
  rfl

/-- With all its digits, a natural number is a candidate. -/
theorem candidate?_ofNat : (candidate? ⟨s, n * 2 ^ k, -(k : Int)⟩ (Layout.natDigits n).length).isSome := by
  have hpow : 0 < 2 ^ k := Nat.pow_pos (by decide)
  have hnum : Binary64.num ⟨s, n * 2 ^ k, -(k : Int)⟩ = n * 2 ^ k := by simp [Binary64.num]
  have hden : Binary64.den ⟨s, n * 2 ^ k, -(k : Int)⟩ = 2 ^ k := by simp [Binary64.den]
  have hrounds : rounds ⟨s, n * 2 ^ k, -(k : Int)⟩ ⟨n, 0⟩ = true :=
    (rounds_ofNat_iff hn s k (Int.le_refl 0)).mpr (by simp [Decimal.whole?])
  unfold candidate?
  simp only [pointPlace_ofNat hn, hnum, hden, Int.sub_self, Int.neg_zero, Int.toNat_zero]
  simp [Nat.mul_div_cancel n hpow, Binary64.roundQuotient_mul n hpow, hrounds]

/-- The shortest decimal of a natural number of at most 16 digits is the number. -/
theorem whole?_decimal_ofNat (hlength : (Layout.natDigits n).length ≤ 16) :
    (decimal ⟨s, n * 2 ^ k, -(k : Int)⟩).whole? = some n := by
  have hne : 0 < (Layout.natDigits n).length := List.length_pos_iff.mpr (Layout.natDigits_ne_nil n)
  have hfull : (Layout.natDigits n).length - 1 + 1 = (Layout.natDigits n).length := by omega
  have hcandidate := candidate?_ofNat hn s k
  rw [← hfull] at hcandidate
  obtain ⟨m, hm, d, hd, hdecimal⟩ := exists_candidate_of_isSome (by simp only [maxDigits]; omega) hcandidate
  -- A candidate with fewer digits has no digits behind the point either.
  obtain ⟨hrounds, hexponent⟩ := candidate?_eq_some hd
  rw [pointPlace_ofNat hn] at hexponent
  have hwhole := (rounds_ofNat_iff hn s k (by omega)).mp hrounds
  rw [hdecimal]
  exact whole?_normalize _ hwhole

end Whole

end Shortest

namespace Binary64

/-- **Integers of at most 53 bits** are written like the numbers nearest to them. -/
theorem wholeValue?_ofInt {n : Int} (h : n.natAbs ≤ 2 ^ 53) : (ofInt n).wholeValue? = some n.natAbs := by
  rcases Nat.lt_trichotomy n.natAbs (2 ^ 53) with hlt | heq | hgt
  · rcases Nat.eq_zero_or_pos n.natAbs with hzero | hpos
    · obtain rfl := Int.natAbs_eq_zero.mp hzero
      rfl
    · have hof : ofInt n = ⟨n < 0, n.natAbs * 2 ^ (52 - n.natAbs.log2), -((52 - n.natAbs.log2 : Nat) : Int)⟩ := by
        rw [ofInt, ofNat_of_lt hpos hlt, Option.getD_some]
      have hnonzero : (ofInt n).isZero = false := by
        have hmantissa : 0 < n.natAbs * 2 ^ (52 - n.natAbs.log2) := Nat.mul_pos hpos (Nat.pow_pos (by decide))
        rw [hof, isZero, beq_eq_false_iff_ne]
        exact Nat.ne_of_gt hmantissa
      have hlength : (Layout.natDigits n.natAbs).length ≤ 16 := by
        rw [Layout.natDigits, Nat.length_toDigits_le_iff (by decide) (by decide)]
        exact Nat.lt_trans hlt (by decide)
      rw [wholeValue?, if_neg (by simp [hnonzero]), hof]
      exact Shortest.whole?_decimal_ofNat hpos _ _ hlength
  · -- The number itself has one bit more, but no digit is lost.
    rcases Int.natAbs_eq n with hn | hn
    · rw [hn, heq]
      decide +kernel
    · rw [hn, heq]
      decide +kernel
  · omega

end Binary64

end Phrasebook
