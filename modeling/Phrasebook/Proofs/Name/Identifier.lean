import Phrasebook.Name.Identifier
import Phrasebook.Proofs.Text.Case
import Phrasebook.Template

/-!
# Form of identifiers

What the names of the generated module look like: identifiers, apart from keywords, which are written raw.

- `isIdentifier_accessorChars`, `isIdentifier_variantChars`: names before keywords are escaped.
- `escaped_cases`: names behind it.
- `escaped_eq_iff`: which names become the same one.
- `ofParameter_not_mem_taken`: a parameter has none of the names that every accessor has already.
-/

namespace Phrasebook.Name

open Phrasebook.Text

/-! ## §1 Characters -/

/-- A capital is one of twenty-six. -/
theorem exists_of_isCapital {c : Char} (h : isCapital c = true) : ∃ n, n < 26 ∧ c = Char.ofNat (65 + n) := by
  obtain ⟨hfirst, hlast⟩ := isCapital_iff.mp h
  refine ⟨c.toNat - 65, by omega, ?_⟩
  rw [show 65 + (c.toNat - 65) = c.toNat by omega, Char.ofNat_toNat]

/-- Lower-casing keeps letters and digits. -/
theorem isAlphanumeric_lowerAscii {c : Char} (h : isAlphanumeric c = true) : isAlphanumeric (lowerAscii c) = true := by
  unfold lowerAscii
  split
  · rename_i hcapital
    obtain ⟨n, hn, rfl⟩ := exists_of_isCapital hcapital
    -- Each of the capitals is looked at.
    revert n
    decide
  · exact h

/-- A letter or digit whose case is changed to upper case is a capital or a digit. -/
theorem isCapital_or_isDigit_upperAscii {c : Char} (h : isAlphanumeric c = true) :
    isCapital (upperAscii c) = true ∨ isDigit (upperAscii c) = true := by
  rcases upperAscii_cases c with ⟨hfirst, hlast, htoNat⟩ | ⟨hother, heq⟩
  · exact .inl (isCapital_iff.mpr (by omega))
  · rw [isAlphanumeric, isLetter, hother, Bool.false_or, Bool.or_eq_true] at h
    rwa [heq]

theorem isAlphanumeric_upperAscii {c : Char} (h : isAlphanumeric c = true) : isAlphanumeric (upperAscii c) = true := by
  rcases isCapital_or_isDigit_upperAscii h with hcapital | hdigit
  · rw [isAlphanumeric, isLetter, hcapital, Bool.or_true, Bool.true_or]
  · rw [isAlphanumeric, hdigit, Bool.or_true]

theorem isIdentifierChar_of_isAlphanumeric {c : Char} (h : isAlphanumeric c = true) : isIdentifierChar c = true := by
  rw [isIdentifierChar, h, Bool.true_or]

theorem isIdentifierChar_accessorChar (c : Char) : isIdentifierChar (accessorChar c) = true := by
  unfold accessorChar
  split
  · rename_i h
    rcases Bool.or_eq_true _ _ ▸ h with halphanumeric | hunderscore
    · exact isIdentifierChar_of_isAlphanumeric (isAlphanumeric_lowerAscii halphanumeric)
    · obtain rfl : c = '_' := by simpa using hunderscore
      decide
  · decide

/-! ## §2 Names before keywords are escaped -/

/-- A guarded text of letters, digits and underscores is an identifier. -/
theorem isIdentifier_guardStart {guard : Char} (hguard : isIdentifierStart guard = true) {cs : List Char}
    (h : ∀ c ∈ cs, isIdentifierChar c = true) : isIdentifier (guardStart guard cs) = true := by
  cases cs with
  | nil => simpa [guardStart, isIdentifier] using hguard
  | cons c cs =>
    rw [guardStart]
    by_cases hdigit : isDigit c = true
    · rw [if_pos hdigit, isIdentifier, hguard, Bool.true_and]
      exact List.all_eq_true.mpr h
    · have hstart : isIdentifierStart c = true := by
        have hc := h c List.mem_cons_self
        simpa [isIdentifierChar, isIdentifierStart, isAlphanumeric, hdigit] using hc
      rw [if_neg hdigit, isIdentifier, hstart, Bool.true_and]
      exact List.all_eq_true.mpr fun d hd => h d (List.mem_cons_of_mem c hd)

theorem isIdentifier_accessorChars (key : List Char) : isIdentifier (accessorChars key) = true := by
  apply isIdentifier_guardStart rfl
  intro c hc
  obtain ⟨d, -, rfl⟩ := List.mem_map.mp hc
  exact isIdentifierChar_accessorChar d

theorem isIdentifier_accessor (key : String) : isIdentifier (accessor key).toList = true := by
  rw [accessor, String.toList_ofList]
  exact isIdentifier_accessorChars _

theorem isIdentifier_snake (name : String) : isIdentifier (snake name).toList = true := by
  rw [snake, String.toList_ofList]
  exact isIdentifier_accessorChars _

/-- The parts of a text hold no separator. -/
theorem not_of_mem_splitBy {p : Char → Bool} {s part : List Char} (h : part ∈ splitBy p s) {c : Char} (hc : c ∈ part) :
    p c = false := by
  induction s generalizing part with
  | nil =>
    obtain rfl := List.mem_singleton.mp h
    cases hc
  | cons d s ih =>
    unfold splitBy at h
    split at h
    · rcases List.mem_cons.mp h with rfl | hmem
      · cases hc
      · exact ih hmem hc
    · rename_i hd
      have hd : p d = false := by simpa using hd
      split at h
      · obtain rfl := List.mem_singleton.mp h
        obtain rfl := List.mem_singleton.mp hc
        exact hd
      · -- `d` goes in front of the first part of what follows.
        rename_i first parts hparts
        rcases List.mem_cons.mp h with rfl | hmem
        · rcases List.mem_cons.mp hc with rfl | hc
          · exact hd
          · exact ih (hparts ▸ List.mem_cons_self) hc
        · exact ih (hparts ▸ List.mem_cons_of_mem first hmem) hc

theorem isIdentifier_variantChars (locale : List Char) : isIdentifier (variantChars locale) = true := by
  apply isIdentifier_guardStart rfl
  intro c hc
  obtain ⟨part, hpart, hmem⟩ := List.mem_flatMap.mp hc
  have halphanumeric : ∀ d ∈ part, isAlphanumeric d = true := by
    intro d hd
    simpa using not_of_mem_splitBy hpart hd
  -- A part has its first character as a capital and the others in lower case.
  cases part with
  | nil => cases hmem
  | cons d part =>
    rcases List.mem_cons.mp hmem with rfl | hrest
    · have hd := halphanumeric d List.mem_cons_self
      exact isIdentifierChar_of_isAlphanumeric (isAlphanumeric_upperAscii (isAlphanumeric_lowerAscii hd))
    · obtain ⟨e, he, rfl⟩ := List.mem_map.mp hrest
      have he := halphanumeric e (List.mem_cons_of_mem d he)
      exact isIdentifierChar_of_isAlphanumeric (isAlphanumeric_lowerAscii he)

/-! ## §3 Keywords -/

theorem isIdentifier_append_underscore {ident : String} (h : isIdentifier ident.toList = true) :
    isIdentifier (ident ++ "_").toList = true := by
  rw [String.toList_append]
  cases hident : ident.toList with
  | nil => decide
  | cons c cs =>
    rw [hident, isIdentifier, Bool.and_eq_true] at h
    have hunderscore : isIdentifierChar '_' = true := rfl
    simp [isIdentifier, h.1, h.2, hunderscore]

/-- An escaped name has an underscore at its end, is written raw, or is the name itself. -/
theorem escaped_forms (ident : String) :
    (ident ∈ reserved ∧ escaped ident = ident ++ "_") ∨ (ident ∈ keywords ∧ escaped ident = "r#" ++ ident) ∨
      escaped ident = ident := by
  unfold escaped
  split
  · rename_i hreserved
    exact .inl ⟨by simpa using hreserved, rfl⟩
  · split
    · rename_i hkeyword
      exact .inr (.inl ⟨by simpa using hkeyword, rfl⟩)
    · exact .inr (.inr rfl)

/-- An escaped name is an identifier, or a keyword that is written raw. -/
theorem escaped_cases {ident : String} (h : isIdentifier ident.toList = true) :
    isIdentifier (escaped ident).toList = true ∨ (ident ∈ keywords ∧ escaped ident = "r#" ++ ident) := by
  rcases escaped_forms ident with ⟨-, heq⟩ | hraw | heq
  · exact .inl (heq ▸ isIdentifier_append_underscore h)
  · exact .inr hraw
  · exact .inl (heq.symm ▸ h)

theorem raw_ne_of_isIdentifier {ident : String} (h : isIdentifier ident.toList = true) (word : String) :
    "r#" ++ word ≠ ident := by
  rintro rfl
  have hmark : isIdentifierChar '#' = false := rfl
  simp [isIdentifier, String.toList_append, hmark] at h

/-- A word that can be no identifier becomes one that needs no escape. -/
theorem escaped_append_underscore {word : String} (h : word ∈ reserved) : escaped (word ++ "_") = word ++ "_" := by
  revert word
  decide

/-- Two identifiers become the same name only when one is a word that can be no identifier and the other one is that
word with an underscore. -/
theorem escaped_eq_iff {x y : String} (hx : isIdentifier x.toList = true) (hy : isIdentifier y.toList = true) :
    escaped x = escaped y ↔ x = y ∨ (x ∈ reserved ∧ y = x ++ "_") ∨ (y ∈ reserved ∧ x = y ++ "_") := by
  refine ⟨fun h => ?_, fun h => ?_⟩
  · have hx_ := isIdentifier_append_underscore hx
    have hy_ := isIdentifier_append_underscore hy
    -- A name is followed by an underscore, written raw or left alone; two forms agree in few ways only.
    rcases escaped_forms x with ⟨hxres, hex⟩ | ⟨-, hex⟩ | hex
    · rcases escaped_forms y with ⟨-, hey⟩ | ⟨-, hey⟩ | hey
      · exact .inl ((String.append_left_inj "_").mp (hex ▸ hey ▸ h))
      · exact absurd (hex ▸ hey ▸ h.symm) (raw_ne_of_isIdentifier hx_ y)
      · exact .inr (.inl ⟨hxres, hex ▸ hey ▸ h.symm⟩)
    · rcases escaped_forms y with ⟨-, hey⟩ | ⟨-, hey⟩ | hey
      · exact absurd (hex ▸ hey ▸ h) (raw_ne_of_isIdentifier hy_ x)
      · exact .inl ((String.append_right_inj "r#").mp (hex ▸ hey ▸ h))
      · exact absurd (hex ▸ hey ▸ h) (raw_ne_of_isIdentifier hy x)
    · rcases escaped_forms y with ⟨hyres, hey⟩ | ⟨-, hey⟩ | hey
      · exact .inr (.inr ⟨hyres, hex ▸ hey ▸ h⟩)
      · exact absurd (hex ▸ hey ▸ h.symm) (raw_ne_of_isIdentifier hx y)
      · exact .inl (hex ▸ hey ▸ h)
  · rcases h with rfl | ⟨hreserved, rfl⟩ | ⟨hreserved, rfl⟩
    · rfl
    · rw [escaped_append_underscore hreserved]
      simp [escaped, hreserved]
    · rw [escaped_append_underscore hreserved]
      simp [escaped, hreserved]

/-- A name that needs no escape, and is none that an escape makes, is that of its own identifier only. -/
theorem escaped_eq_plain_iff {ident word : String} (hident : isIdentifier ident.toList = true)
    (hword : isIdentifier word.toList = true) (hplain : escaped word = word)
    (hfree : word ∉ reserved ∧ ∀ w ∈ reserved, word ≠ w ++ "_") : escaped ident = word ↔ ident = word := by
  refine ⟨fun h => ?_, fun h => h ▸ hplain⟩
  rcases (escaped_eq_iff hident hword).mp (h.trans hplain.symm) with heq | ⟨hmem, hsame⟩ | ⟨hmem, -⟩
  · exact heq
  · exact absurd hsame (hfree.2 ident hmem)
  · exact absurd hmem hfree.1

/-- A parameter has none of the names that every accessor has already. -/
theorem ofParameter_not_mem_taken (name : String) : ofParameter name ∉ taken := by
  unfold ofParameter
  simp only
  -- Whatever way a name is escaped, it ends up outside `taken`.
  have htaken : ∀ ident ∈ taken, ident ++ "_" ∉ taken := by decide
  have hreserved : ∀ ident ∈ reserved, ident ++ "_" ∉ taken := by decide
  have hkeywords : ∀ ident ∈ keywords, "r#" ++ ident ∉ taken := by decide
  split
  · rename_i h
    exact htaken _ (by simpa using h)
  · rename_i hfree
    unfold escaped
    split
    · rename_i h
      exact hreserved _ (by simpa using h)
    · split
      · rename_i h
        exact hkeywords _ (by simpa using h)
      · simpa using hfree

end Phrasebook.Name
