import Phrasebook.Text.Case

/-!
# Lower case is reached at once

A text in lower case stays as it is when it is lower-cased again. What a character becomes is no capital: the images
of the rows of the table lie apart from all rows, and the small sigmas and the dot of the dotted I are small already.

## Layers

- `LowerRow.Covers`, `lowerByTable_cases`: what the table says of a code point.
- `lowerRows_images`, `lowerRows_apart`: where the images of the rows lie.
- `isCapital_iff`, `upperAscii_cases`: ASCII letters as code points.
- `Settled`: a character that lower-casing leaves alone, wherever it stands.
- `settled_of_mem_lower`, `lower_lower`: texts.
-/

namespace Phrasebook.Text

/-! ## §1 Rows -/

/-- A row of the lower-case mapping: its first and last code point, its step and its distance. -/
abbrev LowerRow := Nat × Nat × Nat × Int

namespace LowerRow

/-- A row says what a code point becomes. -/
def Covers (r : LowerRow) (n : Nat) : Prop := r.1 ≤ n ∧ n ≤ r.2.1 ∧ (n - r.1) % r.2.2.1 = 0

/-- What the first code point of a row becomes. -/
def imageStart (r : LowerRow) : Nat := ((r.1 : Int) + r.2.2.2).toNat

/-- What the last code point of a row becomes. -/
def imageEnd (r : LowerRow) : Nat := ((r.2.1 : Int) + r.2.2.2).toNat

/-- What a row makes of its code points is a range of characters without the ASCII capitals and the dotted I. -/
structure Small (r : LowerRow) : Prop where
  nonneg : 0 ≤ (r.1 : Int) + r.2.2.2
  step : r.2.2.1 = 1 ∨ r.2.2.1 = 2
  valid : r.imageEnd < 0xD800 ∨ (0xDFFF < r.imageStart ∧ r.imageEnd < 0x110000)
  capital : r.imageEnd < 0x41 ∨ 0x5A < r.imageStart
  dotted : r.imageEnd < 0x130 ∨ 0x130 < r.imageStart

end LowerRow

/-- Whether the image of a row, given by its ends, its step and whether it is a single point, has no point that the row
`q` covers: it lies before or behind the row, or between its points. -/
def imageApart (start stop step : Nat) (single : Bool) (q : LowerRow) : Bool :=
  (stop + 1).ble q.1 || (q.2.1 + 1).ble start || (q.2.2.1 == 2 && (single || step == 2) && (start + q.1) % 2 == 1)

instance (r : LowerRow) : Decidable r.Small :=
  decidable_of_iff
    (0 ≤ (r.1 : Int) + r.2.2.2 ∧ (r.2.2.1 = 1 ∨ r.2.2.1 = 2) ∧
      (r.imageEnd < 0xD800 ∨ (0xDFFF < r.imageStart ∧ r.imageEnd < 0x110000)) ∧
      (r.imageEnd < 0x41 ∨ 0x5A < r.imageStart) ∧ (r.imageEnd < 0x130 ∨ 0x130 < r.imageStart))
    ⟨fun ⟨h₁, h₂, h₃, h₄, h₅⟩ => ⟨h₁, h₂, h₃, h₄, h₅⟩, fun h => ⟨h.nonneg, h.step, h.valid, h.capital, h.dotted⟩⟩

theorem small_of_mem_lowerRows : ∀ r ∈ lowerRows, LowerRow.Small r := by decide +kernel

theorem lowerRows_apart : (lowerRows.all fun r => lowerRows.all
    (imageApart (LowerRow.imageStart r) (LowerRow.imageEnd r) r.2.2.1 (r.1 == r.2.1))) = true := by
  decide +kernel

/-- The table leaves a code point alone, or one of its rows moves it. -/
theorem lowerByTable_cases (n : Nat) :
    ((∀ r ∈ lowerRows, ¬ LowerRow.Covers r n) ∧ lowerByTable n = n) ∨
      ∃ r ∈ lowerRows, LowerRow.Covers r n ∧ lowerByTable n = ((n : Int) + r.2.2.2).toNat := by
  unfold lowerByTable
  split
  · rename_i r hfind
    have hcovers := List.find?_some hfind
    simp only [Bool.and_eq_true, decide_eq_true_eq, beq_iff_eq] at hcovers
    exact .inr ⟨r, List.mem_of_find?_eq_some hfind, ⟨hcovers.1.1, hcovers.1.2, hcovers.2⟩, rfl⟩
  · rename_i hfind
    refine .inl ⟨fun r hr hcovers => ?_, rfl⟩
    have hnot := List.find?_eq_none.mp hfind r hr
    simp [hcovers.1, hcovers.2.1, hcovers.2.2] at hnot

theorem lowerByTable_of_not_covers {n : Nat} (h : ∀ r ∈ lowerRows, ¬ LowerRow.Covers r n) : lowerByTable n = n := by
  rcases lowerByTable_cases n with ⟨-, heq⟩ | ⟨r, hr, hcovers, -⟩
  · exact heq
  · exact absurd hcovers (h r hr)

/-- What a row makes of a code point lies in the image of the row, as far from its start as the code point is from the
start of the row. -/
theorem LowerRow.Covers.image {r : LowerRow} {n : Nat} (h : r.Covers n) (hr : r.Small) :
    ((n : Int) + r.2.2.2).toNat = r.imageStart + (n - r.1) ∧ r.imageEnd = r.imageStart + (r.2.1 - r.1) := by
  have hnonneg := hr.nonneg
  obtain ⟨hfirst, hlast, -⟩ := h
  unfold imageStart imageEnd
  omega

/-- No row covers what a row has made of a code point. -/
theorem not_covers_image {r : LowerRow} (hr : r ∈ lowerRows) {n : Nat} (h : r.Covers n) {q : LowerRow}
    (hq : q ∈ lowerRows) : ¬ q.Covers ((n : Int) + r.2.2.2).toNat := by
  have hsmall := small_of_mem_lowerRows r hr
  obtain ⟨himage, hend⟩ := h.image hsmall
  have hapart := List.all_eq_true.mp (List.all_eq_true.mp lowerRows_apart r hr) q hq
  simp only [imageApart, Bool.or_eq_true, Bool.and_eq_true, Nat.ble_eq, beq_iff_eq] at hapart
  obtain ⟨hfirst, hlast, hstep⟩ := h
  rintro ⟨hqfirst, hqlast, hqstep⟩
  rw [himage] at hqfirst hqlast hqstep
  rcases hapart with (hbefore | hbehind) | ⟨⟨htwo, hpoints⟩, hodd⟩
  · omega
  · omega
  · -- The points of both have a step of two, but they differ by an odd number.
    rw [htwo] at hqstep
    have heven : (n - r.1) % 2 = 0 := by
      rcases hpoints with hsingle | hsteps
      · omega
      · rwa [hsteps] at hstep
    omega

/-! ## §2 ASCII letters -/

theorem toNat_ofNat {n : Nat} (h : n.isValidChar) : (Char.ofNat n).toNat = n := by
  rw [Char.ofNat, dif_pos h]
  rfl

theorem isCapital_iff {c : Char} : isCapital c = true ↔ 0x41 ≤ c.toNat ∧ c.toNat ≤ 0x5A := by
  simp only [isCapital, Bool.and_eq_true, decide_eq_true_eq, Char.le_def, UInt32.le_iff_toNat_le]
  exact Iff.rfl

theorem not_isCapital_lowerAscii (c : Char) : isCapital (lowerAscii c) = false := by
  unfold lowerAscii
  split
  · rename_i hcapital
    obtain ⟨hfirst, hlast⟩ := isCapital_iff.mp hcapital
    rw [Bool.eq_false_iff, ne_eq, isCapital_iff, toNat_ofNat (.inl (by omega))]
    omega
  · rename_i hcapital
    simpa using hcapital

theorem lowerAscii_of_not_isCapital {c : Char} (h : isCapital c = false) : lowerAscii c = c := if_neg (by simp [h])

/-- A small letter becomes the capital 32 before it, and nothing else is changed. -/
theorem upperAscii_cases (c : Char) :
    (97 ≤ c.toNat ∧ c.toNat ≤ 122 ∧ (upperAscii c).toNat = c.toNat - 32) ∨
      (('a' ≤ c && c ≤ 'z') = false ∧ upperAscii c = c) := by
  unfold upperAscii
  split
  · rename_i hsmall
    simp only [Bool.and_eq_true, decide_eq_true_eq, Char.le_def, UInt32.le_iff_toNat_le] at hsmall
    have hfirst : 97 ≤ c.toNat := hsmall.1
    have hlast : c.toNat ≤ 122 := hsmall.2
    exact .inl ⟨hfirst, hlast, toNat_ofNat (.inl (by omega))⟩
  · rename_i hother
    exact .inr ⟨by simpa using hother, rfl⟩

/-- What is no capital comes back. -/
theorem lowerAscii_upperAscii {c : Char} (h : isCapital c = false) : lowerAscii (upperAscii c) = c := by
  rcases upperAscii_cases c with ⟨hfirst, hlast, htoNat⟩ | ⟨-, heq⟩
  · rw [lowerAscii, if_pos (isCapital_iff.mpr (by omega)), htoNat, Nat.sub_add_cancel (by omega), Char.ofNat_toNat]
  · rw [heq, lowerAscii_of_not_isCapital h]

/-! ## §3 Characters -/

/-- A character that lower-casing leaves alone, wherever it stands. -/
structure Settled (c : Char) : Prop where
  /-- It is no capital sigma, whose small form depends on its neighbours. -/
  noSigma : c.toNat ≠ 0x3A3
  lowerChar_eq : lowerChar c = [c]

/-- Outside ASCII, a character is settled when no row of the table covers it. -/
theorem settled_of_not_covers {c : Char} (hdotted : c.toNat ≠ 0x130) (hcapital : isCapital c = false)
    (h : ∀ r ∈ lowerRows, ¬ LowerRow.Covers r c.toNat) : Settled c where
  noSigma := by
    intro hsigma
    rw [hsigma] at h
    exact h (0x3A3, 0x3AB, 1, 32) (by decide +kernel) ⟨by decide, by decide, rfl⟩
  lowerChar_eq := by
    unfold lowerChar
    split
    · rw [lowerAscii_of_not_isCapital hcapital]
    · rw [lowerByTable_of_not_covers h, Char.ofNat_toNat]

theorem settled_of_ascii {c : Char} (hascii : c.toNat < 0x80) (hcapital : isCapital c = false) : Settled c where
  noSigma := by omega
  lowerChar_eq := by rw [lowerChar, if_pos hascii, lowerAscii_of_not_isCapital hcapital]

/-- What an ASCII character becomes is settled. -/
theorem settled_lowerAscii {c : Char} (h : c.toNat < 0x80) : Settled (lowerAscii c) := by
  refine settled_of_ascii ?_ (not_isCapital_lowerAscii c)
  unfold lowerAscii
  split
  · rename_i hcapital
    obtain ⟨hfirst, hlast⟩ := isCapital_iff.mp hcapital
    rw [toNat_ofNat (.inl (by omega))]
    omega
  · exact h

/-- What a row makes of a character is settled. -/
theorem settled_image {r : LowerRow} (hr : r ∈ lowerRows) {n : Nat} (h : r.Covers n) :
    Settled (Char.ofNat ((n : Int) + r.2.2.2).toNat) := by
  have hsmall := small_of_mem_lowerRows r hr
  obtain ⟨himage, hend⟩ := h.image hsmall
  have ⟨hfirst, hlast, _⟩ := h
  have hwithin : ((n : Int) + r.2.2.2).toNat ≤ r.imageEnd := by omega
  have hvalid : (((n : Int) + r.2.2.2).toNat).isValidChar := by
    rcases hsmall.valid with hlow | ⟨hhigh, hmax⟩
    · exact .inl (by omega)
    · exact .inr ⟨by omega, by omega⟩
  have htoNat := toNat_ofNat hvalid
  -- An image is neither the dotted letter nor a capital one, and no row of the table covers it.
  refine settled_of_not_covers ?_ ?_ ?_
  · rw [htoNat]
    rcases hsmall.dotted with hlow | hhigh <;> omega
  · rw [Bool.eq_false_iff, ne_eq, isCapital_iff, htoNat]
    rcases hsmall.capital with hlow | hhigh <;> omega
  · rw [htoNat]
    exact fun q hq => not_covers_image hr h hq

/-- What a character becomes is settled. -/
theorem settled_of_mem_lowerChar {c d : Char} (h : d ∈ lowerChar c) : Settled d := by
  unfold lowerChar at h
  split at h
  · rename_i hascii
    obtain rfl := List.mem_singleton.mp h
    exact settled_lowerAscii hascii
  · rename_i hascii
    have hcapital : isCapital c = false := by
      rw [Bool.eq_false_iff, ne_eq, isCapital_iff]
      omega
    split at h
    · -- The dotted I becomes a letter and a dot.
      rcases List.mem_cons.mp h with rfl | h
      · exact settled_of_ascii (by decide) (by decide)
      · obtain rfl := List.mem_singleton.mp h
        exact ⟨by decide, by decide +kernel⟩
    · rename_i hdotted
      obtain rfl := List.mem_singleton.mp h
      rcases lowerByTable_cases c.toNat with ⟨hnot, heq⟩ | ⟨r, hr, hcovers, heq⟩
      · rw [heq, Char.ofNat_toNat]
        exact settled_of_not_covers hdotted hcapital hnot
      · rw [heq]
        exact settled_image hr hcovers

theorem settled_lowerSigma (before after : List Char) : Settled (lowerSigma before after) := by
  unfold lowerSigma
  split
  · exact ⟨by decide, by decide +kernel⟩
  · exact ⟨by decide, by decide +kernel⟩

theorem Settled.not_isCapital {c : Char} (h : Settled c) : isCapital c = false := by
  rw [Bool.eq_false_iff, ne_eq, isCapital_iff]
  rintro ⟨hfirst, hlast⟩
  -- A capital would be moved by 32.
  have hcapital : isCapital c = true := isCapital_iff.mpr ⟨hfirst, hlast⟩
  have heq := h.lowerChar_eq
  rw [lowerChar, if_pos (by omega), lowerAscii, if_pos hcapital] at heq
  have hmoved := congrArg Char.toNat (List.cons.inj heq).1
  rw [toNat_ofNat (.inl (by omega))] at hmoved
  omega

/-! ## §4 Texts -/

theorem settled_of_mem_lowerFrom {before s : List Char} {c : Char} (h : c ∈ lowerFrom before s) : Settled c := by
  induction s generalizing before with
  | nil => cases h
  | cons d s ih =>
    rw [lowerFrom] at h
    rcases List.mem_append.mp h with h | h
    · split at h
      · obtain rfl := List.mem_singleton.mp h
        exact settled_lowerSigma before s
      · exact settled_of_mem_lowerChar h
    · exact ih h

/-- In a text in lower case, every character is settled. -/
theorem settled_of_mem_lower {s : List Char} {c : Char} (h : c ∈ lower s) : Settled c := settled_of_mem_lowerFrom h

theorem lowerFrom_of_settled {s : List Char} (h : ∀ c ∈ s, Settled c) (before : List Char) :
    lowerFrom before s = s := by
  induction s generalizing before with
  | nil => rfl
  | cons c s ih =>
    have hc := h c List.mem_cons_self
    rw [lowerFrom, if_neg hc.noSigma, hc.lowerChar_eq, ih fun d hd => h d (List.mem_cons_of_mem c hd)]
    rfl

/-- A text in lower case stays as it is. -/
theorem lower_lower (s : List Char) : lower (lower s) = lower s :=
  lowerFrom_of_settled (fun _ => settled_of_mem_lower) []

end Phrasebook.Text
