import Phrasebook.Text.Basic
import Mathlib.Data.List.Basic
import Mathlib.Data.List.DropRight

/-!
# Trimming

What is left of a text without the blanks at its ends.

- `trim_blanks`: blanks around a text make no difference.
- `trim_eq_self_iff`: the texts that are trimmed already.
-/

namespace Phrasebook.Text

/-- A text of blanks only. -/
def Blanks (s : List Char) : Prop := ∀ c ∈ s, isBlank c = true

instance (s : List Char) : Decidable (Blanks s) := inferInstanceAs (Decidable (∀ c ∈ s, isBlank c = true))

/-! ## §1 Blanks at the ends -/

theorem trimStart_append_of_blanks {before : List Char} (h : Blanks before) (s : List Char) :
    trimStart (before ++ s) = trimStart s :=
  List.dropWhile_append_of_pos h

theorem trimEnd_append_of_blanks {behind : List Char} (h : Blanks behind) (s : List Char) :
    trimEnd (s ++ behind) = trimEnd s := by
  rw [trimEnd, List.reverse_append, List.dropWhile_append_of_pos fun c hc => h c (List.mem_reverse.mp hc)]
  rfl

theorem trimStart_of_blanks {s : List Char} (h : Blanks s) : trimStart s = [] :=
  List.dropWhile_eq_nil_iff.mpr h

/-- Behind a text that is not blank, nothing is removed from the start. -/
theorem trimStart_append {s : List Char} (h : trimStart s ≠ []) (rest : List Char) :
    trimStart (s ++ rest) = trimStart s ++ rest := by
  rw [trimStart, List.dropWhile_append, if_neg]
  · rfl
  · exact fun hnil => h (List.isEmpty_iff.mp hnil)

/-- Blanks around a text make no difference. -/
theorem trim_blanks {before behind : List Char} (hbefore : Blanks before) (hbehind : Blanks behind)
    (s : List Char) : trim (before ++ s ++ behind) = trim s := by
  rw [trim, List.append_assoc, trimStart_append_of_blanks hbefore, trim]
  by_cases hs : trimStart s = []
  · -- The text is blank itself, and so is all that is left.
    have hblank : Blanks s := List.dropWhile_eq_nil_iff.mp hs
    rw [hs, trimStart_append_of_blanks hblank, trimStart_of_blanks hbehind]
  · rw [trimStart_append hs, trimEnd_append_of_blanks hbehind]

/-- Around what is left of a text there were blanks. -/
theorem exists_blanks (s : List Char) :
    ∃ before behind, Blanks before ∧ Blanks behind ∧ s = before ++ trim s ++ behind := by
  refine ⟨s.takeWhile isBlank, ((trimStart s).reverse.takeWhile isBlank).reverse, ?_, ?_, ?_⟩
  · exact fun c hc => List.mem_takeWhile_imp hc
  · exact fun c hc => List.mem_takeWhile_imp (List.mem_reverse.mp hc)
  · rw [trim, trimEnd, List.append_assoc, ← List.reverse_append, List.takeWhile_append_dropWhile,
      List.reverse_reverse, trimStart, List.takeWhile_append_dropWhile]

theorem mem_of_mem_trim {s : List Char} {c : Char} (h : c ∈ trim s) : c ∈ s := by
  obtain ⟨before, behind, -, -, hs⟩ := exists_blanks s
  rw [hs]
  exact List.mem_append_left _ (List.mem_append_right _ h)

/-- What is trimmed is trimmed already. -/
theorem trim_trim (s : List Char) : trim (trim s) = trim s := by
  obtain ⟨before, behind, hbefore, hbehind, hs⟩ := exists_blanks s
  conv_rhs => rw [hs, trim_blanks hbefore hbehind]

/-- The end of a text may be trimmed when its start has been. -/
theorem trim_trimStart (s : List Char) : trim (trimStart s) = trim s := by
  rw [trim, trim, trimStart, trimStart, List.dropWhile_idempotent]

theorem trim_trimEnd (s : List Char) : trim (trimEnd s) = trim s := by
  have hbehind : Blanks (s.reverse.takeWhile isBlank).reverse :=
    fun c hc => List.mem_takeWhile_imp (List.mem_reverse.mp hc)
  have hs : s = [] ++ trimEnd s ++ (s.reverse.takeWhile isBlank).reverse := by
    rw [List.nil_append, trimEnd, ← List.reverse_append, List.takeWhile_append_dropWhile, List.reverse_reverse]
  conv_rhs => rw [hs, trim_blanks (List.forall_mem_nil _) hbehind]

/-- In front of a character that is no blank, nothing is removed from the end. -/
theorem trimEnd_append_cons {c : Char} (hc : isBlank c = false) (s rest : List Char) :
    trimEnd (s ++ c :: rest) = s ++ c :: trimEnd rest := by
  have hcons : (c :: s.reverse).dropWhile isBlank = c :: s.reverse := by simp [hc]
  rw [trimEnd, List.reverse_append, List.reverse_cons, List.append_assoc, List.singleton_append, List.dropWhile_append,
    hcons]
  split
  · rename_i hblank
    rw [trimEnd, List.isEmpty_iff.mp hblank]
    simp
  · simp [trimEnd]

/-- A text is trimmed at its two ends when something else stands between. -/
theorem trim_append_cons {before : List Char} (h : trim before ≠ []) {c : Char} (hc : isBlank c = false)
    (behind : List Char) : trim (before ++ c :: behind) = trimStart before ++ c :: trimEnd behind := by
  have hstart : trimStart before ≠ [] := fun hnil => h (by rw [trim, hnil]; rfl)
  rw [trim, trimStart_append hstart, trimEnd_append_cons hc]

/-! ## §2 Trimmed texts -/

theorem trimStart_eq_self_iff {s : List Char} : trimStart s = s ↔ ∀ c, s.head? = some c → isBlank c = false := by
  rw [trimStart, List.dropWhile_eq_self_iff]
  cases s with
  | nil => simp
  | cons c s => simp

theorem trimEnd_eq_self_iff {s : List Char} : trimEnd s = s ↔ ∀ c, s.getLast? = some c → isBlank c = false := by
  rw [trimEnd, List.reverse_eq_iff]
  show trimStart s.reverse = s.reverse ↔ _
  rw [trimStart_eq_self_iff, List.head?_reverse]

theorem length_trimStart_le (s : List Char) : (trimStart s).length ≤ s.length :=
  (List.dropWhile_suffix isBlank).length_le

theorem length_trimEnd_le (s : List Char) : (trimEnd s).length ≤ s.length := by
  have hlength := length_trimStart_le s.reverse
  rw [List.length_reverse] at hlength
  rw [trimEnd, List.length_reverse]
  exact hlength

/-- A text is trimmed when it neither starts nor ends with a blank. -/
theorem trim_eq_self_iff {s : List Char} :
    trim s = s ↔ (∀ c, s.head? = some c → isBlank c = false) ∧ ∀ c, s.getLast? = some c → isBlank c = false := by
  rw [← trimStart_eq_self_iff, ← trimEnd_eq_self_iff]
  refine ⟨fun h => ?_, fun h => ?_⟩
  · -- Nothing can have been removed from the start, as the length is the same.
    have hstart : trimStart s = s := by
      apply (List.dropWhile_suffix isBlank).eq_of_length_le
      have hend := length_trimEnd_le (trimStart s)
      rw [show trimEnd (trimStart s) = s from h] at hend
      exact hend
    rw [trim, hstart] at h
    exact ⟨hstart, h⟩
  · rw [trim, h.1, h.2]

/-- A text that ends with a character which is no blank is trimmed at its start only. -/
theorem trim_concat {c : Char} (hc : isBlank c = false) (s : List Char) : trim (s ++ [c]) = trimStart s ++ [c] := by
  have hstart : trimStart (s ++ [c]) = trimStart s ++ [c] := by
    by_cases hs : trimStart s = []
    · rw [trimStart_append_of_blanks (List.dropWhile_eq_nil_iff.mp hs), hs]
      exact trimStart_eq_self_iff.mpr fun d hd => by simpa [← Option.some.inj hd] using hc
    · exact trimStart_append hs [c]
  rw [trim, hstart, trimEnd_eq_self_iff]
  intro d hd
  rw [List.getLast?_concat] at hd
  exact Option.some.inj hd ▸ hc

end Phrasebook.Text
