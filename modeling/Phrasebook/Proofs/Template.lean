import Phrasebook.Template

/-!
# Pieces of templates

- `isIdentifier_of_mem_segments`: the name of a placeholder is an identifier.
- `mem_placeholders_iff`, `placeholders_nodup`: the names of a template are those of its placeholders, each once.
- `render_congr`: a template shows the values of these names and of no others.
- `segments_append`, `render_append`: an identifier between braces is a placeholder, whatever stands around it.
- `segments_written_iff`: a name that is no identifier is none.
-/

namespace Phrasebook

open Phrasebook.Name

/-! ## §1 Identifiers -/

theorem isIdentifierChar_of_isIdentifierStart {c : Char} (h : isIdentifierStart c = true) :
    isIdentifierChar c = true := by
  simp only [isIdentifierStart, Bool.or_eq_true, decide_eq_true_eq] at h
  rcases h with hletter | hunderscore
  · simp [isIdentifierChar, isAlphanumeric, hletter]
  · simp [isIdentifierChar, hunderscore]

theorem all_isIdentifierChar {w : List Char} (h : isIdentifier w = true) : w.all isIdentifierChar = true := by
  cases w with
  | nil => rfl
  | cons c cs =>
    rw [isIdentifier, Bool.and_eq_true] at h
    rw [List.all_cons, isIdentifierChar_of_isIdentifierStart h.1, h.2]
    rfl

/-! ## §2 Placeholders -/

/-- A placeholder is completed by an identifier only. -/
theorem isIdentifier_of_placeholderName? {behind name : List Char} (h : placeholderName? behind = some name) :
    isIdentifier name = true := by
  unfold placeholderName? at h
  simp only at h
  split at h
  · split at h
    · rename_i hid
      obtain rfl := Option.some.inj h
      exact hid
    · cases h
  · cases h

theorem mem_of_mem_flush {literal : List Char} {rest : List Segment} {name : String}
    (h : .placeholder name ∈ flush literal rest) : .placeholder name ∈ rest := by
  unfold flush at h
  split at h
  · exact h
  · rcases List.mem_cons.mp h with heq | hrest
    · cases heq
    · exact hrest

theorem isIdentifier_of_mem_segmentsFrom {skip : Nat} {literal cs : List Char} {name : String}
    (h : .placeholder name ∈ segmentsFrom skip literal cs) : isIdentifier name.toList = true := by
  induction cs generalizing skip literal with
  | nil =>
    cases skip with
    | zero => exact absurd (mem_of_mem_flush h) List.not_mem_nil
    | succ skip => exact absurd (mem_of_mem_flush h) List.not_mem_nil
  | cons c cs ih =>
    cases skip with
    | succ skip => exact ih h
    | zero =>
      unfold segmentsFrom at h
      split at h
      · split at h
        · rename_i found hfound
          -- The placeholder stands here, or in what follows it.
          rcases List.mem_cons.mp (mem_of_mem_flush h) with heq | hrest
          · obtain rfl := Segment.placeholder.inj heq
            rw [String.toList_ofList]
            exact isIdentifier_of_placeholderName? hfound
          · exact ih hrest
        · exact ih h
      · exact ih h

/-- The name of a placeholder is an identifier. -/
theorem Template.isIdentifier_of_mem_segments {t : Template} {name : String}
    (h : .placeholder name ∈ t.segments) : isIdentifier name.toList = true :=
  isIdentifier_of_mem_segmentsFrom h

/-! ## §3 Names -/

namespace Template

/-- The names with that of a segment, unless it is one of them. -/
private def addName (names : List String) : Segment → List String
  | .literal _ => names
  | .placeholder name => if names.contains name then names else names ++ [name]

private theorem addName_spec {names : List String} (h : names.Nodup) (s : Segment) :
    (addName names s).Nodup ∧ ∀ p, p ∈ addName names s ↔ p ∈ names ∨ s = .placeholder p := by
  cases s with
  | literal text => simp [addName, h]
  | placeholder name =>
    by_cases hmem : name ∈ names
    · have hadd : addName names (.placeholder name) = names := by simp [addName, hmem]
      rw [hadd]
      refine ⟨h, fun p => (or_iff_left_of_imp ?_).symm⟩
      intro heq
      exact Segment.placeholder.inj heq ▸ hmem
    · have hadd : addName names (.placeholder name) = names ++ [name] := by simp [addName, hmem]
      rw [hadd]
      refine ⟨?_, fun p => by simp [eq_comm]⟩
      rw [List.nodup_append]
      exact ⟨h, List.pairwise_singleton _ name, fun a ha b hb heq => hmem (List.mem_singleton.mp hb ▸ heq ▸ ha)⟩

private theorem foldl_addName_spec {names : List String} (h : names.Nodup) (segments : List Segment) :
    (segments.foldl addName names).Nodup ∧
      ∀ p, p ∈ segments.foldl addName names ↔ p ∈ names ∨ .placeholder p ∈ segments := by
  induction segments generalizing names with
  | nil => simp [h]
  | cons s segments ih =>
    obtain ⟨hnodup, hmem⟩ := addName_spec h s
    obtain ⟨hfold, hall⟩ := ih hnodup
    refine ⟨hfold, fun p => ?_⟩
    rw [List.foldl_cons, hall, hmem, List.mem_cons, or_assoc, eq_comm (a := s)]

private theorem placeholders_eq (t : Template) : t.placeholders = t.segments.foldl addName [] := rfl

theorem mem_placeholders_iff {t : Template} {p : String} : p ∈ t.placeholders ↔ .placeholder p ∈ t.segments := by
  rw [placeholders_eq, (foldl_addName_spec List.nodup_nil t.segments).2]
  simp

theorem placeholders_nodup (t : Template) : t.placeholders.Nodup := by
  rw [placeholders_eq]
  exact (foldl_addName_spec List.nodup_nil t.segments).1

/-- Only the values of the placeholders count: what is shown in their place is not looked at again. -/
theorem render_congr {t : Template} {resolve resolve' : String → Option String}
    (h : ∀ name ∈ t.placeholders, resolve name = resolve' name) : t.render resolve = t.render resolve' := by
  rw [render, render]
  congr 1
  apply List.map_congr_left
  intro segment hsegment
  cases segment with
  | literal text => rfl
  | placeholder name => rw [renderSegment, renderSegment, h name (mem_placeholders_iff.mpr hsegment)]

end Template

/-! ## §4 Texts around a placeholder -/

/-- A placeholder is completed by an identifier with a closing brace behind it. -/
theorem placeholderName?_eq_some_iff {behind name : List Char} :
    placeholderName? behind = some name ↔ isIdentifier name = true ∧ ∃ rest, behind = name ++ '}' :: rest := by
  refine ⟨fun h => ⟨isIdentifier_of_placeholderName? h, ?_⟩, fun h => ?_⟩
  · unfold placeholderName? at h
    simp only at h
    split at h
    · rename_i rest hrest
      split at h
      · obtain rfl := Option.some.inj h
        exact ⟨rest, by rw [← hrest, List.takeWhile_append_dropWhile]⟩
      · cases h
    · cases h
  -- The closing brace is no character of a name, so the name is taken to its end and no further.
  · obtain ⟨hname, rest, rfl⟩ := h
    have hall := List.all_eq_true.mp (all_isIdentifierChar hname)
    have hbrace : ¬ isIdentifierChar '}' = true := by decide
    simp only [placeholderName?, List.takeWhile_append_of_pos hall, List.dropWhile_append_of_pos hall,
      List.takeWhile_cons_of_neg hbrace, List.dropWhile_cons_of_neg hbrace, List.append_nil, hname, ↓reduceIte]

/-- No placeholder goes on behind a further opening brace. -/
theorem placeholderName?_append (behind rest : List Char) :
    placeholderName? (behind ++ '{' :: rest) = placeholderName? behind := by
  refine Option.ext fun name => ?_
  rw [placeholderName?_eq_some_iff, placeholderName?_eq_some_iff]
  refine and_congr_right fun hname => ⟨fun h => ?_, fun h => ?_⟩
  · obtain ⟨more, heq⟩ := h
    have hbrace : '{' ∉ name := fun hmem => absurd (List.all_eq_true.mp (all_isIdentifierChar hname) _ hmem) (by decide)
    rcases List.append_eq_append_iff.mp heq with ⟨between, hname', hrest⟩ | ⟨between, hbehind, hmore⟩
    · -- The opening brace would be in the name, or would be the closing one.
      cases between with
      | nil => cases hrest
      | cons c between =>
        obtain ⟨rfl, -⟩ := List.cons.inj hrest
        exact absurd (hname' ▸ List.mem_append_right _ List.mem_cons_self) hbrace
    · cases between with
      | nil => cases hmore
      | cons c between =>
        obtain ⟨rfl, -⟩ := List.cons.inj hmore
        exact ⟨between, hbehind⟩
  · obtain ⟨more, rfl⟩ := h
    exact ⟨more ++ '{' :: rest, by rw [List.append_assoc, List.cons_append]⟩

theorem flush_append (literal : List Char) (rest : List Segment) : flush literal rest = flush literal [] ++ rest := by
  unfold flush
  split <;> rfl

/-- What is to be passed over does not matter. -/
theorem segmentsFrom_skip (passed literal rest : List Char) :
    segmentsFrom passed.length literal (passed ++ rest) = segmentsFrom 0 literal rest := by
  induction passed with
  | nil => rfl
  | cons c passed ih => rw [List.length_cons, List.cons_append, segmentsFrom, ih]

/-- The pieces of a text are those in front of a placeholder, the placeholder, and those behind it. -/
theorem segmentsFrom_append {name : List Char} (hname : isIdentifier name = true) {skip : Nat}
    (literal before after : List Char) (hskip : skip ≤ before.length) :
    segmentsFrom skip literal (before ++ Segment.placeholderChars name ++ after)
      = segmentsFrom skip literal before ++ .placeholder (String.ofList name) :: segmentsFrom 0 [] after := by
  -- What is passed over ends in front of the placeholder, since one that is found there ends there.
  induction before generalizing skip literal with
  | nil =>
    obtain rfl : skip = 0 := by simpa using hskip
    have hfound : placeholderName? (name ++ '}' :: after) = some name :=
      placeholderName?_eq_some_iff.mpr ⟨hname, after, rfl⟩
    have hpassed := segmentsFrom_skip (name ++ ['}']) [] after
    rw [List.length_append, List.length_singleton, List.append_assoc, List.singleton_append] at hpassed
    rw [List.nil_append, Segment.placeholderChars, List.cons_append, List.append_assoc, List.singleton_append,
      segmentsFrom, segmentsFrom, if_pos rfl]
    simp only [hfound, hpassed]
    exact flush_append literal _
  | cons c before ih =>
    cases skip with
    | succ skip => exact ih literal (Nat.le_of_succ_le_succ hskip)
    | zero =>
      rw [List.append_assoc, List.cons_append, ← List.append_assoc, segmentsFrom, segmentsFrom]
      split
      · have hsame : placeholderName? (before ++ Segment.placeholderChars name ++ after) = placeholderName? before := by
          rw [Segment.placeholderChars, List.append_assoc, List.cons_append, placeholderName?_append]
        rw [hsame]
        cases hfound : placeholderName? before with
        | none => exact ih _ (Nat.zero_le _)
        | some found =>
          obtain ⟨-, rest, rfl⟩ := placeholderName?_eq_some_iff.mp hfound
          simp only
          rw [ih _ (by simp), flush_append literal (_ :: (_ ++ _)), flush_append literal (_ :: _), List.append_assoc]
          rfl
      · exact ih _ (Nat.zero_le _)

namespace Template

variable {name : String}

theorem segments_append (hname : isIdentifier name.toList = true) (before after : String) :
    (Template.mk (before ++ (Segment.placeholder name).written ++ after)).segments
      = (Template.mk before).segments ++ .placeholder name :: (Template.mk after).segments := by
  have happend := segmentsFrom_append hname [] before.toList after.toList (Nat.zero_le _)
  rw [String.ofList_toList] at happend
  rw [segments, String.toList_append, String.toList_append, Segment.written, String.toList_ofList]
  exact happend

/-- A name between braces is a placeholder exactly when it is an identifier. -/
theorem segments_written_iff (name : String) :
    (Template.mk (Segment.placeholder name).written).segments = [.placeholder name] ↔
      isIdentifier name.toList = true := by
  refine ⟨fun h => isIdentifier_of_mem_segments (t := ⟨(Segment.placeholder name).written⟩) (h ▸ List.mem_cons_self),
    fun hname => ?_⟩
  have happend := segments_append hname "" ""
  rwa [String.empty_append, String.append_empty] at happend

/-- The values in front of and behind a placeholder are shown as if it were not there. -/
theorem render_append (hname : isIdentifier name.toList = true) (before after : String)
    (resolve : String → Option String) :
    (Template.mk (before ++ (Segment.placeholder name).written ++ after)).render resolve
      = (Template.mk before).render resolve ++ renderSegment resolve (.placeholder name)
        ++ (Template.mk after).render resolve := by
  rw [render, segments_append hname, List.map_append, List.map_cons, String.join_append, String.join_cons,
    ← String.append_assoc]
  rfl

end Template

end Phrasebook
