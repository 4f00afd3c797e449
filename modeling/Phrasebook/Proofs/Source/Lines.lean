import Phrasebook.Source.Tag
import Mathlib.Data.List.Forall2
import Mathlib.Data.List.TakeWhile

/-!
# Lines of a text

A text is cut into lines behind its line feeds, and a line into its blanks, its body and its ending. Both can be undone,
and what is put together from parts of these kinds is cut into them again.

## Layers

1. **Texts**: `AreLines` are the lists that a text is cut into, and they stay such lists when words without a line feed
   are put in place of others.
2. **Lines**: `Line.Proper` are the parts that a line is cut into.
-/

namespace Phrasebook.SourceTag

/-! ## §1 Texts -/

theorem flatten_linesOf (s : List Char) : (linesOf s).flatten = s := by
  induction s with
  | nil => rfl
  | cons c s ih =>
    rw [linesOf]
    split
    · rw [List.flatten_cons, ih, List.singleton_append]
    · cases hlines : linesOf s with
      | nil =>
        rw [hlines] at ih
        simp [← ih]
      | cons l ls =>
        rw [hlines] at ih
        simp [← ih]

theorem linesOf_of_not_mem {s : List Char} (hne : s ≠ []) (h : '\n' ∉ s) : linesOf s = [s] := by
  induction s with
  | nil => exact absurd rfl hne
  | cons c s ih =>
    rw [List.mem_cons, not_or] at h
    rw [linesOf, if_neg (Ne.symm h.1)]
    cases s with
    | nil => rfl
    | cons d s => rw [ih (List.cons_ne_nil d s) h.2]

/-- The lines of a text: each has a line feed at its end and nowhere else, and only the last one may lack it. -/
inductive AreLines : List (List Char) → Prop where
  | nil : AreLines []
  | last {s : List Char} (hne : s ≠ []) (h : '\n' ∉ s) : AreLines [s]
  | cons {s : List Char} {ls : List (List Char)} (h : '\n' ∉ s) (hrest : AreLines ls) :
      AreLines ((s ++ ['\n']) :: ls)

theorem areLines_linesOf (s : List Char) : AreLines (linesOf s) := by
  induction s with
  | nil => exact .nil
  | cons c s ih =>
    rw [linesOf]
    split
    · rename_i hc
      rw [hc]
      exact .cons (s := []) List.not_mem_nil ih
    · rename_i hc
      have hcons : ∀ {t : List Char}, '\n' ∉ t → '\n' ∉ c :: t := fun ht => by simp [ht, Ne.symm hc]
      -- The character goes to the first line of the rest.
      cases hlines : linesOf s with
      | nil => exact .last (List.cons_ne_nil c []) (hcons List.not_mem_nil)
      | cons l ls =>
        rw [hlines] at ih
        cases ih with
        | last hne h => exact .last (List.cons_ne_nil c l) (hcons h)
        | @cons t _ h hrest => exact .cons (s := c :: t) (hcons h) hrest

theorem linesOf_append_lineFeed {s : List Char} (h : '\n' ∉ s) (rest : List Char) :
    linesOf (s ++ '\n' :: rest) = (s ++ ['\n']) :: linesOf rest := by
  induction s with
  | nil => simp [linesOf]
  | cons c s ih =>
    rw [List.mem_cons, not_or] at h
    rw [List.cons_append, linesOf, if_neg (Ne.symm h.1), ih h.2]
    rfl

theorem AreLines.linesOf_flatten {ls : List (List Char)} (h : AreLines ls) : linesOf ls.flatten = ls := by
  induction h with
  | nil => rfl
  | last hne h =>
    rw [List.flatten_cons, List.flatten_nil, List.append_nil]
    exact linesOf_of_not_mem hne h
  | cons h hrest ih =>
    rw [List.flatten_cons, List.append_assoc, List.singleton_append, linesOf_append_lineFeed h, ih]

/-- A text in which another word may stand in place of one, both without a line feed. -/
def Reworded (s t : List Char) : Prop :=
  s = t ∨ ∃ before old new behind, s = before ++ old ++ behind ∧ t = before ++ new ++ behind ∧
    old ≠ [] ∧ new ≠ [] ∧ '\n' ∉ old ∧ '\n' ∉ new

theorem Reworded.of_not_mem {s t : List Char} (h : Reworded s t) (hs : '\n' ∉ s) : '\n' ∉ t := by
  rcases h with rfl | ⟨before, old, new, behind, rfl, rfl, -, -, -, hnew⟩
  · exact hs
  · simp only [List.mem_append, not_or] at hs ⊢
    exact ⟨⟨hs.1.1, hnew⟩, hs.2⟩

theorem Reworded.ne_nil {s t : List Char} (h : Reworded s t) (hs : s ≠ []) : t ≠ [] := by
  rcases h with rfl | ⟨before, old, new, behind, -, rfl, -, hnew, -⟩
  · exact hs
  · simp [hnew]

/-- A line feed at the end is behind both words. -/
theorem Reworded.exists_of_lineFeed {s t : List Char} (h : Reworded (s ++ ['\n']) t) :
    ∃ r, t = r ++ ['\n'] ∧ Reworded s r := by
  rcases h with rfl | ⟨before, old, new, behind, hs, rfl, hold, hnew, hold', hnew'⟩
  · exact ⟨s, rfl, .inl rfl⟩
  · rcases List.eq_nil_or_concat behind with rfl | ⟨front, c, rfl⟩
    · rcases List.eq_nil_or_concat old with rfl | ⟨front, c, rfl⟩
      · exact absurd rfl hold
      · -- The last character of the old word would be the line feed.
        rw [List.concat_eq_append, List.append_nil, ← List.append_assoc] at hs
        obtain ⟨-, hc⟩ := List.append_inj' hs rfl
        cases hc
        exact absurd (by simp) hold'
    · rw [List.concat_eq_append, ← List.append_assoc] at hs
      obtain ⟨rfl, hc⟩ := List.append_inj' hs rfl
      cases hc
      refine ⟨before ++ new ++ front, by simp, .inr ⟨before, old, new, front, rfl, rfl, hold, hnew, hold', hnew'⟩⟩

theorem AreLines.reworded {ls ls' : List (List Char)} (h : AreLines ls) (hwords : List.Forall₂ Reworded ls ls') :
    AreLines ls' := by
  induction h generalizing ls' with
  | nil =>
    cases hwords
    exact .nil
  | last hne h =>
    obtain ⟨s', rest, hs, hrest, rfl⟩ := List.forall₂_cons_left_iff.mp hwords
    cases hrest
    exact .last (hs.ne_nil hne) (hs.of_not_mem h)
  | cons h hrest ih =>
    obtain ⟨s', rest, hs, hrests, rfl⟩ := List.forall₂_cons_left_iff.mp hwords
    obtain ⟨r, rfl, hr⟩ := hs.exists_of_lineFeed
    exact .cons (hr.of_not_mem h) (ih hrests)

/-! ## §2 Lines -/

theorem not_of_head?_dropWhile {p : Char → Bool} {s : List Char} {c : Char} (h : (s.dropWhile p).head? = some c) :
    p c = false := by
  have hnot := List.head?_dropWhile_not p s
  rwa [h] at hnot

theorem takeWhile_append_stop {p : Char → Bool} {s t : List Char} (hs : ∀ c ∈ s, p c = true)
    (ht : ∀ c, t.head? = some c → p c = false) : (s ++ t).takeWhile p = s ∧ (s ++ t).dropWhile p = t := by
  have hstop : t.takeWhile p = [] ∧ t.dropWhile p = t := by
    cases t with
    | nil => exact ⟨rfl, rfl⟩
    | cons c t => simp [ht c rfl]
  rw [List.takeWhile_append_of_pos hs, List.dropWhile_append_of_pos hs, hstop.1, hstop.2, List.append_nil]
  exact ⟨rfl, rfl⟩

theorem Line.chars_ofChars (s : List Char) : (Line.ofChars s).chars = s := by
  -- The spaces in front of a body are alike, so that it is enough to count them.
  have hblanks : ∀ t : List Char, List.replicate (t.takeWhile (· == ' ')).length ' ' = t.takeWhile (· == ' ') := by
    intro t
    refine (List.eq_replicate_iff.mpr ⟨rfl, fun c hc => ?_⟩).symm
    simpa using List.mem_takeWhile_imp hc
  rw [Line.chars, Line.ofChars, hblanks, List.takeWhile_append_dropWhile, ← List.reverse_append,
    List.takeWhile_append_dropWhile, List.reverse_reverse]

/-- The parts of a line as a line is taken apart. -/
structure Line.Proper (l : Line) : Prop where
  start : l.body.head? ≠ some ' '
  finish : ∀ c, l.body.getLast? = some c → isLineEnd c = false
  ending : ∀ c ∈ l.ending, isLineEnd c = true

theorem Line.proper_ofChars (s : List Char) : (Line.ofChars s).Proper where
  start := by
    intro h
    exact absurd (not_of_head?_dropWhile h) (by decide)
  finish := by
    intro c h
    obtain ⟨front, hfront⟩ := List.dropWhile_suffix (· == ' ') (l := (s.reverse.dropWhile isLineEnd).reverse)
    -- The last character of the body is the last one in front of the ending.
    have hlast : ((s.reverse.dropWhile isLineEnd).reverse).getLast? = some c := by
      simp only [Line.ofChars] at h
      rw [← hfront, List.getLast?_append, h]
      rfl
    rw [List.getLast?_reverse] at hlast
    exact not_of_head?_dropWhile hlast
  ending := by
    intro c hc
    exact List.mem_takeWhile_imp (List.mem_reverse.mp hc)

theorem Line.Proper.ofChars_chars {l : Line} (h : l.Proper) : Line.ofChars l.chars = l := by
  have hreverse : l.chars.reverse = l.ending.reverse ++ (List.replicate l.indent ' ' ++ l.body).reverse := by
    rw [Line.chars, List.reverse_append]
  -- In front of the ending stands the last character of the body, or else a space.
  have hstop : ∀ c, (List.replicate l.indent ' ' ++ l.body).reverse.head? = some c → isLineEnd c = false := by
    intro c hc
    rw [List.head?_reverse, List.getLast?_append] at hc
    cases hbody : l.body.getLast? with
    | some d =>
      rw [hbody] at hc
      cases hc
      exact h.finish c hbody
    | none =>
      rw [hbody] at hc
      have hspace : c = ' ' := List.eq_of_mem_replicate (List.mem_of_getLast? hc)
      rw [hspace]
      rfl
  obtain ⟨hending, htext⟩ := takeWhile_append_stop (p := isLineEnd) (s := l.ending.reverse)
    (fun c hc => h.ending c (List.mem_reverse.mp hc)) hstop
  obtain ⟨hindent, hbody⟩ := takeWhile_append_stop (p := (· == ' ')) (s := List.replicate l.indent ' ') (t := l.body)
    (fun c hc => by simp [List.eq_of_mem_replicate hc])
    (fun c hc => by
      have hne : c ≠ ' ' := fun heq => h.start (heq ▸ hc)
      simpa using hne)
  unfold Line.ofChars
  simp only [hreverse, hending, htext, List.reverse_reverse, hindent, hbody, List.length_replicate]

end Phrasebook.SourceTag
