import Phrasebook.Name.Identifier
import Phrasebook.Proofs.Text.Case
import Mathlib.Data.List.Basic

/-!
# Humps of a name

Humps are looked for two characters at a time, and none is missed: the second character of a hump is a capital, so
no hump begins with it. A split name has no humps, and the identifier that is made of it does not depend on the
separator.

## Layers

- `isHump`, `markHumps`: each character with the one before it, and a separator in front of every hump.
- `separateHumps_eq`: the steps of two characters find the same humps.
- `splitHumps_splitHumps`: a split name stays as it is.
- `snake_eq_accessor`: the identifier of a name is that of the key which the name is split to.
-/

namespace Phrasebook.Name

open Phrasebook.Text

/-! ## §1 Humps -/

/-- A capital is a hump when a character stands before it that is no capital. -/
def isHump (before : Option Char) (c : Char) : Bool := before.any (fun a => !isCapital a) && isCapital c

/-- The characters of a text, each with the one before it. -/
def withBefore (before : Option Char) (s : List Char) : List (Option Char × Char) := (before :: s.map some).zip s

/-- What a character is written as: a hump gets the separator in front of it. -/
def written (sep : Char) (p : Option Char × Char) : List Char := if isHump p.1 p.2 then [sep, p.2] else [p.2]

/-- The text with a separator exactly in front of its humps. -/
def markHumps (sep : Char) (s : List Char) : List Char := (withBefore none s).flatMap (written sep)

theorem flatMap_written_cons {before : Option Char} {c : Char} (h : isHump before c = false) (sep : Char)
    (s : List Char) :
    (withBefore before (c :: s)).flatMap (written sep) = c :: (withBefore (some c) s).flatMap (written sep) := by
  show written sep (before, c) ++ _ = _
  rw [written, if_neg (by simp [h])]
  rfl

/-- The steps of two characters miss no hump: what is passed over with a hump is a capital, and no hump comes after
one. -/
theorem separateHumps_eq_flatMap (sep : Char) {before : Option Char} {s : List Char}
    (h : ∀ c ∈ s.head?, isHump before c = false) :
    separateHumps sep s = (withBefore before s).flatMap (written sep) := by
  -- By induction along the function; a capital letter that is set apart does not begin another hump at once.
  induction s using separateHumps.induct generalizing before with
  | case1 => rfl
  | case2 c => rw [flatMap_written_cons (h c rfl)]; rfl
  | case3 a b cs hhump ih =>
    have hb : isCapital b = true := (Bool.and_eq_true _ _ ▸ hhump).2
    have hab : isHump (some a) b = true := hhump
    have hnext : ∀ c ∈ cs.head?, isHump (some b) c = false := fun c _ => by simp [isHump, hb]
    rw [separateHumps, if_pos hhump, ih hnext, flatMap_written_cons (h a rfl)]
    show _ = a :: (written sep (some a, b) ++ _)
    rw [written, if_pos hab]
    rfl
  | case4 a b cs hhump ih =>
    have hab : ∀ c ∈ (b :: cs).head?, isHump (some a) c = false := by
      intro c hc
      obtain rfl := Option.some.inj hc
      exact Bool.eq_false_iff.mpr hhump
    rw [separateHumps, if_neg hhump, ih hab, flatMap_written_cons (h a rfl)]

/-- Every hump of a text is found, and nothing else. -/
theorem separateHumps_eq (sep : Char) (s : List Char) : separateHumps sep s = markHumps sep s :=
  separateHumps_eq_flatMap sep fun _ _ => rfl

/-! ## §2 Split names -/

/-- Without capitals there are no humps. -/
theorem separateHumps_of_no_capital {s : List Char} (h : ∀ c ∈ s, isCapital c = false) (sep : Char) :
    separateHumps sep s = s := by
  induction s using separateHumps.induct with
  | case1 => rfl
  | case2 c => rfl
  | case3 a b cs hhump ih =>
    have hb := h b (by simp)
    rw [hb, Bool.and_false] at hhump
    cases hhump
  | case4 a b cs hhump ih => rw [separateHumps, if_neg hhump, ih fun c hc => h c (List.mem_cons_of_mem a hc)]

theorem splitHumpsChars_splitHumpsChars (sep : Char) (s : List Char) :
    splitHumpsChars sep (splitHumpsChars sep s) = splitHumpsChars sep s := by
  rw [splitHumpsChars, splitHumpsChars, separateHumps_of_no_capital fun c hc => (settled_of_mem_lower hc).not_isCapital,
    lower_lower]

/-- A split name stays as it is. -/
theorem splitHumps_splitHumps (name : String) (sep : Char) :
    splitHumps (splitHumps name sep) sep = splitHumps name sep := by
  rw [splitHumps, splitHumps, String.toList_ofList, splitHumpsChars_splitHumpsChars]

/-! ## §3 Identifiers of split names -/

/-- What a character stands for in an identifier when it is lower-cased first. -/
def smallAccessor (c : Char) : List Char := (lowerChar c).map accessorChar

/-- The neighbours of a capital sigma make no difference to an identifier, in which it is an underscore. -/
theorem map_accessorChar_lowerFrom (before s : List Char) :
    (lowerFrom before s).map accessorChar = s.flatMap smallAccessor := by
  induction s generalizing before with
  | nil => rfl
  | cons c s ih =>
    rw [lowerFrom, List.map_append, ih, List.flatMap_cons]
    congr 1
    split
    -- Both small sigmas are no letters of an accessor, so it does not matter which one is written.
    · rename_i hsigma
      have hc : c = Char.ofNat 0x3A3 := by rw [← hsigma, Char.ofNat_toNat]
      have hsmall : (smallAccessor (Char.ofNat 0x3A3)) = ['_'] := by decide +kernel
      rw [hc, hsmall, lowerSigma]
      split
      · decide
      · decide
    · rfl

/-- The identifier of a split name has an underscore for a separator that is no letter and no digit. -/
theorem map_accessorChar_splitHumpsChars {sep : Char} (h : smallAccessor sep = ['_']) (s : List Char) :
    (splitHumpsChars sep s).map accessorChar =
      (withBefore none s).flatMap fun p => if isHump p.1 p.2 then '_' :: smallAccessor p.2 else smallAccessor p.2 := by
  rw [splitHumpsChars, lower, map_accessorChar_lowerFrom, separateHumps_eq, markHumps, List.flatMap_assoc]
  refine List.flatMap_congr fun p _ => ?_
  rw [written]
  split
  · simp [h]
  · simp

/-- The identifier of a name is that of the key which the name is split to. -/
theorem snake_eq_accessor (name : String) : snake name = accessor (splitHumps name '.') := by
  have hdot : smallAccessor '.' = ['_'] := by decide
  have hunderscore : smallAccessor '_' = ['_'] := by decide
  rw [snake, accessor, splitHumps, String.toList_ofList, accessorChars, accessorChars,
    map_accessorChar_splitHumpsChars hdot, map_accessorChar_splitHumpsChars hunderscore]

end Phrasebook.Name
