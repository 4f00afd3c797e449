import Phrasebook.Proofs.Template
import Mathlib.Data.List.Chain

/-!
# The pieces of a text

A text can be taken apart into literals and placeholders in one way only, and a template is rendered by putting a
value in the place of each placeholder, in whatever order that is done.

## Layers

- `HoldsPlaceholder`: an identifier between braces stands in a text; without one the text is a single piece.
  `placeholder_induction` goes from the texts around a placeholder to the whole one.
- `Decomposes`: the pieces of a text, said without the scan that finds them. `Decomposes.append` joins two lists of
  pieces at a placeholder; `decomposes_segments` and `Decomposes.eq_segments` are its two directions.
- `Replaced`: placeholders replaced one after another, at any of them first.
- `Template.decomposes_iff`: the pieces are unique, and what rendering makes of them.
-/

namespace Phrasebook

/-! ## §1 Placeholders in a text -/

/-- An identifier between braces stands somewhere in a text. -/
def HoldsPlaceholder (text : String) : Prop :=
  ∃ before name after, isIdentifier name.toList = true ∧ text = before ++ (Segment.placeholder name).written ++ after

theorem length_placeholder_pos (name : String) : 0 < (Segment.placeholder name).written.length := by
  rw [Segment.written, String.length_ofList, Segment.chars, Segment.placeholderChars, List.length_cons]
  exact Nat.succ_pos _

/-- A further character in front takes no placeholder away. -/
theorem HoldsPlaceholder.cons {cs : List Char} (h : HoldsPlaceholder (String.ofList cs)) (c : Char) :
    HoldsPlaceholder (String.ofList (c :: cs)) := by
  obtain ⟨before, name, after, hname, heq⟩ := h
  refine ⟨String.singleton c ++ before, name, after, hname, ?_⟩
  rw [← List.singleton_append, String.ofList_append, heq, String.append_assoc, String.append_assoc, String.append_assoc]
  rfl

theorem holdsPlaceholder_of_placeholderName? {cs name : List Char} (h : placeholderName? cs = some name) :
    HoldsPlaceholder (String.ofList ('{' :: cs)) := by
  obtain ⟨hname, rest, rfl⟩ := placeholderName?_eq_some_iff.mp h
  refine ⟨"", String.ofList name, String.ofList rest, by rwa [String.toList_ofList], ?_⟩
  rw [String.empty_append, Segment.written, ← String.ofList_append]
  simp [Segment.chars, Segment.placeholderChars]

/-- What holds of the texts without placeholder, and of a text when it holds of those around a placeholder of it, holds
of every text. -/
theorem placeholder_induction {P : String → Prop} (rest : ∀ text, ¬ HoldsPlaceholder text → P text)
    (step : ∀ before name after, isIdentifier name.toList = true → P before → P after →
      P (before ++ (Segment.placeholder name).written ++ after)) (text : String) : P text := by
  -- The texts around a placeholder are shorter.
  obtain ⟨n, hn⟩ : ∃ n, text.length = n := ⟨_, rfl⟩
  induction n using Nat.strong_induction_on generalizing text with
  | _ n ih =>
    by_cases hholds : HoldsPlaceholder text
    · obtain ⟨before, name, after, hname, rfl⟩ := hholds
      have hmark := length_placeholder_pos name
      rw [String.length_append, String.length_append] at hn
      exact step before name after hname (ih _ (by omega) before rfl) (ih _ (by omega) after rfl)
    · exact rest text hholds

/-- The scan comes to the end of a text without placeholder. -/
theorem segmentsFrom_of_not_holds {cs : List Char} (h : ¬ HoldsPlaceholder (String.ofList cs)) (literal : List Char) :
    segmentsFrom 0 literal cs = flush (cs.reverse ++ literal) [] := by
  induction cs generalizing literal with
  | nil => rfl
  | cons c cs ih =>
    have hrest := ih (fun hholds => h (hholds.cons c)) (c :: literal)
    rw [List.reverse_cons, List.append_assoc, List.singleton_append, segmentsFrom]
    split
    · rename_i hc
      cases hname : placeholderName? cs with
      | some name => exact absurd (hc ▸ holdsPlaceholder_of_placeholderName? hname) h
      | none => exact hrest
    · exact hrest

/-- A text without placeholder is one literal, unless it is empty. -/
theorem Template.segments_of_not_holds {text : String} (hne : text ≠ "") (h : ¬ HoldsPlaceholder text) :
    (Template.mk text).segments = [.literal text] := by
  have hchars : text.toList.reverse ≠ [] := by simpa using hne
  rw [segments, segmentsFrom_of_not_holds (by rwa [String.ofList_toList]), List.append_nil, flush,
    if_neg (by simpa using hchars), List.reverse_reverse, String.ofList_toList]

/-! ## §2 Decompositions -/

/-- Whether a piece stands for itself. -/
def Segment.isLiteral : Segment → Bool
  | literal _ => true
  | placeholder _ => false

/-- Literals and placeholders that a text is taken apart into. -/
structure Decomposes (text : String) (segments : List Segment) : Prop where
  /-- The pieces are the text when they are written one behind the other. -/
  written : String.join (segments.map Segment.written) = text
  literals : ∀ part, .literal part ∈ segments → part ≠ "" ∧ ¬ HoldsPlaceholder part
  /-- No literal stands behind another one. -/
  apart : segments.IsChain fun a b => a.isLiteral = true → b.isLiteral = false
  names : ∀ name, .placeholder name ∈ segments → isIdentifier name.toList = true

theorem written_literal (text : String) : (Segment.literal text).written = text := by
  rw [Segment.written, Segment.chars, String.ofList_toList]

namespace Decomposes

theorem empty : Decomposes "" [] := ⟨rfl, by simp, .nil, by simp⟩

theorem singleton {text : String} (hne : text ≠ "") (h : ¬ HoldsPlaceholder text) :
    Decomposes text [.literal text] where
  written := by rw [List.map_singleton, String.join_cons, written_literal]; exact String.append_empty
  literals := by
    intro part hpart
    obtain rfl := Segment.literal.inj (List.mem_singleton.mp hpart)
    exact ⟨hne, h⟩
  apart := .singleton _
  names := by
    intro name hname
    cases List.mem_singleton.mp hname

/-- A placeholder keeps the pieces on its two sides apart. -/
theorem append {before after name : String} {ss ss' : List Segment} (h : Decomposes before ss)
    (hname : isIdentifier name.toList = true) (h' : Decomposes after ss') :
    Decomposes (before ++ (Segment.placeholder name).written ++ after) (ss ++ .placeholder name :: ss') where
  written := by
    rw [List.map_append, List.map_cons, String.join_append, String.join_cons, h.written, h'.written,
      String.append_assoc]
  literals := by
    intro part hpart
    rcases List.mem_append.mp hpart with hpart | hpart
    · exact h.literals part hpart
    · rcases List.mem_cons.mp hpart with heq | hpart
      · cases heq
      · exact h'.literals part hpart
  apart := by
    -- The placeholder keeps the last literal in front of it and the first one behind it apart.
    have hbehind : (Segment.placeholder name :: ss').IsChain fun a b => a.isLiteral = true → b.isLiteral = false :=
      List.isChain_cons.mpr ⟨nofun, h'.apart⟩
    refine List.isChain_append.mpr ⟨h.apart, hbehind, fun a _ b hb _ => ?_⟩
    obtain rfl := Option.some.inj hb
    rfl
  names := by
    intro n hn
    rcases List.mem_append.mp hn with hn | hn
    · exact h.names n hn
    · rcases List.mem_cons.mp hn with heq | hn
      · exact Segment.placeholder.inj heq ▸ hname
      · exact h'.names n hn

/-- The pieces behind the first one are pieces of the rest of the text. -/
theorem tail {text : String} {s : Segment} {ss : List Segment} (h : Decomposes text (s :: ss)) :
    Decomposes (String.join (ss.map Segment.written)) ss :=
  ⟨rfl, fun part hpart => h.literals part (List.mem_cons_of_mem s hpart), h.apart.tail,
    fun name hname => h.names name (List.mem_cons_of_mem s hname)⟩

end Decomposes

/-- The pieces that are found are a decomposition. -/
theorem decomposes_segments (text : String) : Decomposes text (Template.mk text).segments := by
  induction text using placeholder_induction with
  | rest text hnot =>
    by_cases hne : text = ""
    · subst hne
      exact .empty
    · rw [Template.segments_of_not_holds hne hnot]
      exact .singleton hne hnot
  | step before name after hname ih ih' =>
    rw [Template.segments_append hname]
    exact ih.append hname ih'

/-- There is no other decomposition: the pieces in front of the first placeholder are found, and so are those behind
it. -/
theorem Decomposes.eq_segments : ∀ {segments : List Segment} {text : String}, Decomposes text segments →
    segments = (Template.mk text).segments
  | [], _, h => by
    obtain rfl := h.written
    rfl
  | .placeholder name :: ss, _, h => by
    have hrest := h.tail.eq_segments
    have hfound := Template.segments_append (h.names name List.mem_cons_self) "" (String.join (ss.map Segment.written))
    obtain rfl := h.written
    rw [String.empty_append] at hfound
    rw [List.map_cons, String.join_cons, hfound, ← hrest]
    rfl
  | [.literal part], _, h => by
    obtain ⟨hne, hnot⟩ := h.literals part List.mem_cons_self
    obtain rfl := h.written
    have hpart : String.join [part] = part := String.empty_append
    rw [List.map_singleton, written_literal, hpart]
    exact (Template.segments_of_not_holds hne hnot).symm
  | .literal part :: .literal other :: ss, _, h => by
    have hapart := (List.isChain_cons_cons.mp h.apart).1 rfl
    cases hapart
  | .literal part :: .placeholder name :: ss, _, h => by
    obtain ⟨hne, hnot⟩ := h.literals part List.mem_cons_self
    have hrest := h.tail.tail.eq_segments
    have hfound := Template.segments_append (h.tail.names name List.mem_cons_self) part
      (String.join (ss.map Segment.written))
    obtain rfl := h.written
    rw [List.map_cons, List.map_cons, String.join_cons, String.join_cons, written_literal, ← String.append_assoc,
      hfound, Template.segments_of_not_holds hne hnot, ← hrest]
    rfl

/-! ## §3 Replacements -/

/-- A text in which placeholders are replaced one after another, at any of them first, until none is left. What is put
in is not looked at again. -/
inductive Replaced (resolve : String → Option String) : String → String → Prop where
  | rest {text : String} (h : ¬ HoldsPlaceholder text) : Replaced resolve text text
  /-- A placeholder without a value is replaced by itself. -/
  | step {before after before' after' name : String} (hname : isIdentifier name.toList = true)
      (h : Replaced resolve before before') (h' : Replaced resolve after after') :
      Replaced resolve (before ++ (Segment.placeholder name).written ++ after)
        (before' ++ (resolve name).getD (Segment.placeholder name).written ++ after')

namespace Template

theorem render_of_not_holds {text : String} (h : ¬ HoldsPlaceholder text) (resolve : String → Option String) :
    (Template.mk text).render resolve = text := by
  by_cases hne : text = ""
  · subst hne
    rfl
  · rw [render, segments_of_not_holds hne h, List.map_singleton, String.join_cons]
    exact String.append_empty

/-- Rendering is a way to replace the placeholders. -/
theorem replaced_render (resolve : String → Option String) (text : String) :
    Replaced resolve text ((Template.mk text).render resolve) := by
  induction text using placeholder_induction with
  | rest text hnot =>
    rw [render_of_not_holds hnot]
    exact .rest hnot
  | step before name after hname ih ih' =>
    rw [render_append hname]
    exact .step hname ih ih'

/-- And there is no other outcome. -/
theorem eq_render_of_replaced {resolve : String → Option String} {text out : String} (h : Replaced resolve text out) :
    out = (Template.mk text).render resolve := by
  induction h with
  | rest hnot => exact (render_of_not_holds hnot resolve).symm
  | step hname _ _ ih ih' => rw [render_append hname, ← ih, ← ih']; rfl

/-- **Pieces**: the pieces of a template are its only decomposition. Without values the template is rendered to its
text; with values, to the text in which the placeholders are replaced, in whatever order. -/
theorem decomposes_iff (t : Template) :
    (∀ segments, Decomposes t.raw segments ↔ segments = t.segments) ∧ t.render (fun _ => none) = t.raw ∧
      ∀ resolve out, Replaced resolve t.raw out ↔ out = t.render resolve := by
  refine ⟨fun segments => ⟨fun h => h.eq_segments, fun h => h ▸ decomposes_segments t.raw⟩, ?_,
    fun resolve out => ⟨eq_render_of_replaced, fun h => h ▸ replaced_render resolve t.raw⟩⟩
  have hwritten : t.segments.map (renderSegment fun _ => none) = t.segments.map Segment.written := by
    apply List.map_congr_left
    intro s _
    cases s with
    | literal text => exact (written_literal text).symm
    | placeholder name => rfl
  rw [render, hwritten]
  exact (decomposes_segments t.raw).written

/-- Of nested and unbalanced braces, only those around an identifier are a placeholder. -/
example : (Template.mk "\x7b\x7ba\x7d\x7d\x7bb\x7bc\x7d").segments
    = [.literal "\x7b", .placeholder "a", .literal "\x7d\x7bb", .placeholder "c"] := by decide

end Template

end Phrasebook
