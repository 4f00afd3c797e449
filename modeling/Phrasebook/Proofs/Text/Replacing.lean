import Phrasebook.Text.Basic
import Mathlib.Data.List.Infix

/-!
# Replaced words

A text in which a word is replaced is what stands around the occurrences of the word, with the new text in between. So
the new text can be told from the result, unless there was nothing to replace.

## Layers

- `contains_iff`: occurrences as parts of a text.
- `partsAround`, `replaceAll_eq_intercalate`: what stands around the occurrences.
- `replaceAll_inj`: the new text is known from the result.
- `Covered.replaceAll_append`: two texts that can be looked at one after the other.
-/

namespace Phrasebook.Text

/-! ## §1 Occurrences -/

theorem contains_iff {word s : List Char} : contains word s = true ↔ word <:+: s := by
  induction s with
  | nil => simp [contains]
  | cons c s ih => rw [contains, Bool.or_eq_true, List.isPrefixOf_iff_prefix, ih, List.infix_cons_iff]

theorem contains_append_left {word t : List Char} (h : contains word t = true) (s : List Char) :
    contains word (s ++ t) = true := by
  rw [contains_iff] at h ⊢
  exact h.trans (List.suffix_append s t).isInfix

theorem not_contains_of_not_mem {c : Char} {word s : List Char} (hfirst : word.head? = some c) (h : c ∉ s) :
    contains word s = false := by
  rw [Bool.eq_false_iff, ne_eq, contains_iff]
  exact fun hwithin => h (hwithin.subset (List.mem_of_mem_head? hfirst))

/-! ## §2 What stands around the occurrences -/

/-- What stands around the occurrences of a word, with `skip` characters of one still to be passed over. -/
def partsFrom (word : List Char) : Nat → List Char → List (List Char)
  | _, [] => [[]]
  | skip + 1, _ :: cs => partsFrom word skip cs
  | 0, c :: cs =>
    if word.isPrefixOf (c :: cs) then [] :: partsFrom word (word.length - 1) cs
    else (partsFrom word 0 cs).modifyHead (c :: ·)

/-- What stands around the occurrences of a non-empty word, from the left and without overlap. -/
def partsAround (word s : List Char) : List (List Char) := partsFrom word 0 s

theorem partsFrom_ne_nil (word : List Char) (skip : Nat) (s : List Char) : partsFrom word skip s ≠ [] := by
  fun_induction partsFrom word skip s with
  | case1 => simp
  | case2 _ _ _ ih => exact ih
  | case3 => simp
  | case4 _ _ _ ih => simpa using ih

theorem intercalate_nil_cons (new : List Char) {parts : List (List Char)} (h : parts ≠ []) :
    new.intercalate ([] :: parts) = new ++ new.intercalate parts := by
  obtain ⟨part, parts, rfl⟩ := List.exists_cons_of_ne_nil h
  rw [List.intercalate_cons_cons, List.nil_append]

theorem intercalate_modifyHead (new : List Char) (c : Char) {parts : List (List Char)} (h : parts ≠ []) :
    new.intercalate (parts.modifyHead (c :: ·)) = c :: new.intercalate parts := by
  obtain ⟨part, parts, rfl⟩ := List.exists_cons_of_ne_nil h
  cases parts with
  | nil => simp
  | cons next parts => simp

theorem replaceFrom_eq_intercalate (word new : List Char) (skip : Nat) (s : List Char) :
    replaceFrom word new skip s = new.intercalate (partsFrom word skip s) := by
  fun_induction partsFrom word skip s with
  | case1 => simp [replaceFrom]
  | case2 skip c s ih => rw [replaceFrom, ih]
  | case3 c s hstart ih => rw [replaceFrom, if_pos hstart, ih, intercalate_nil_cons new (partsFrom_ne_nil _ _ _)]
  | case4 c s hstart ih => rw [replaceFrom, if_neg hstart, ih, intercalate_modifyHead new c (partsFrom_ne_nil _ _ _)]

/-- A text with a word replaced is what stands around the word, with the new text in between. -/
theorem replaceAll_eq_intercalate (word new s : List Char) :
    replaceAll word new s = new.intercalate (partsAround word s) :=
  replaceFrom_eq_intercalate word new 0 s

/-- There is something on both sides of an occurrence. -/
theorem two_le_length_partsAround {word s : List Char} (hne : word ≠ []) (h : contains word s = true) :
    2 ≤ (partsAround word s).length := by
  unfold partsAround
  -- By induction on the text: the word begins here and cuts it, or else further behind.
  induction s with
  | nil =>
    rw [contains_iff, List.infix_nil] at h
    exact absurd h hne
  | cons c s ih =>
    rw [partsFrom]
    split
    · rw [List.length_cons]
      have := List.length_pos_of_ne_nil (partsFrom_ne_nil word (word.length - 1) s)
      omega
    · rename_i hstart
      rw [List.length_modifyHead]
      rw [contains, Bool.or_eq_true] at h
      exact ih (h.resolve_left hstart)

theorem partsAround_of_not_contains {word s : List Char} (h : contains word s = false) : partsAround word s = [s] := by
  unfold partsAround
  induction s with
  | nil => rfl
  | cons c s ih =>
    rw [contains, Bool.or_eq_false_iff] at h
    rw [partsFrom, if_neg (by simp [h.1]), ih h.2]
    rfl

theorem replaceAll_of_not_contains {word s : List Char} (h : contains word s = false) (new : List Char) :
    replaceAll word new s = s := by
  rw [replaceAll_eq_intercalate, partsAround_of_not_contains h, List.intercalate_singleton]

/-! ## §3 The new text -/

theorem length_intercalate (new : List Char) (parts : List (List Char)) :
    (new.intercalate parts).length = parts.flatten.length + (parts.length - 1) * new.length := by
  induction parts with
  | nil => simp
  | cons part parts ih =>
    cases parts with
    | nil => simp
    | cons next parts =>
      rw [List.intercalate_cons_cons, List.length_append, List.length_append, ih]
      simp only [List.flatten_cons, List.length_append, List.length_cons, Nat.add_sub_cancel, Nat.add_mul]
      omega

/-- The text between two parts is known from the whole. -/
theorem intercalate_inj {a b : List Char} {parts : List (List Char)} (hparts : 2 ≤ parts.length)
    (h : a.intercalate parts = b.intercalate parts) : a = b := by
  have hlength : a.length = b.length := by
    have heq := congrArg List.length h
    rw [length_intercalate, length_intercalate] at heq
    exact Nat.eq_of_mul_eq_mul_left (by omega) (Nat.add_left_cancel heq)
  match parts, hparts with
  | first :: second :: parts, _ =>
    rw [List.intercalate_cons_cons, List.intercalate_cons_cons, List.append_assoc, List.append_assoc] at h
    exact (List.append_inj (List.append_cancel_left h) hlength).1

/-- A text shows what a word in it has been replaced with, unless the word does not occur in it. -/
theorem replaceAll_inj {word s a b : List Char} (hne : word ≠ []) :
    replaceAll word a s = replaceAll word b s ↔ a = b ∨ contains word s = false := by
  refine ⟨fun h => ?_, ?_⟩
  · rw [replaceAll_eq_intercalate, replaceAll_eq_intercalate] at h
    cases hcontains : contains word s with
    | false => exact .inr rfl
    | true => exact .inl (intercalate_inj (two_le_length_partsAround hne hcontains) h)
  · rintro (rfl | hcontains)
    · rfl
    · rw [replaceAll_of_not_contains hcontains, replaceAll_of_not_contains hcontains]

/-! ## §4 Neighbours -/

/-- Each `sign` in a text belongs to an occurrence of a word. -/
def Covered (sign : Char) (word s : List Char) : Prop := sign ∉ replaceAll word [] s

instance (sign : Char) (word s : List Char) : Decidable (Covered sign word s) := inferInstanceAs (Decidable (¬ _))

theorem replaceFrom_append {sign : Char} {word new : List Char} (hsign : word.head? = some sign) {skip : Nat}
    {s : List Char} (hskip : skip ≤ s.length) (h : sign ∉ replaceFrom word [] skip s) (t : List Char) :
    replaceFrom word new skip (s ++ t) = replaceFrom word new skip s ++ replaceAll word new t := by
  obtain ⟨word, rfl⟩ := List.head?_eq_some_iff.mp hsign
  fun_induction replaceFrom (sign :: word) [] skip s with
  | case1 skip =>
    obtain rfl : skip = 0 := by simpa using hskip
    rfl
  | case2 skip c s ih =>
    rw [List.cons_append, replaceFrom, replaceFrom]
    exact ih (by simpa using hskip) h
  | case3 c s hstart ih =>
    have hle := (List.isPrefixOf_iff_prefix.mp hstart).length_le
    have happend : (sign :: word).isPrefixOf (c :: (s ++ t)) = true := by
      rw [List.isPrefixOf_iff_prefix] at hstart ⊢
      exact hstart.trans (List.prefix_append (c :: s) t)
    rw [List.cons_append, replaceFrom, replaceFrom, if_pos happend, if_pos hstart,
      ih (by simpa using hle) h, List.append_assoc]
  | case4 c s hstart ih =>
    -- A character that is left is not the first one of the word.
    have hne : sign ≠ c := fun heq => h (heq ▸ List.mem_cons_self)
    have happend : ¬ (sign :: word).isPrefixOf (c :: (s ++ t)) = true := by simp [hne]
    rw [List.cons_append, replaceFrom, replaceFrom, if_neg happend, if_neg hstart,
      ih (Nat.zero_le _) (fun hmem => h (List.mem_cons_of_mem c hmem)), List.cons_append]

/-- Behind a covered text, occurrences begin anew. -/
theorem Covered.replaceAll_append {sign : Char} {word s : List Char} (hsign : word.head? = some sign)
    (h : Covered sign word s) (new t : List Char) :
    replaceAll word new (s ++ t) = replaceAll word new s ++ replaceAll word new t :=
  replaceFrom_append hsign (Nat.zero_le _) h t

end Phrasebook.Text
