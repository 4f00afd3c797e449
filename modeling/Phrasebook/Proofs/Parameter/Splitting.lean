import Phrasebook.Parameter.Type
import Mathlib.Data.List.Basic

/-!
# Cutting at commas outside brackets

`splitWithin` counts the brackets that are open and cuts at a comma when there is none. A text that closes the brackets
it opens is never cut inside them, whatever stands around it.

- `Uncut`, `UncutInside`: texts that are not cut, wherever they stand or between brackets.
- `UncutInside.brackets`: a pair of brackets protects what stands between them.
- `depthBehind`: the count of open brackets, followed along a text; `uncut_iff` finds the uncut texts by it.
- `splitTopLevel_eq_some_iff`: the parts of a text are uncut texts with commas between them, and there are no others.
-/

namespace Phrasebook

open Phrasebook.Text

/-- The parts of a text with characters put in front of the first one. -/
def prefixFirst (s : List Char) : List (List Char) → List (List Char)
  | [] => [s]
  | p :: ps => (s ++ p) :: ps

/-- An opening bracket with the closing one that belongs to it. -/
inductive Brackets : Char → Char → Prop where
  | angle : Brackets '<' '>'
  | square : Brackets '[' ']'

/-- A character that is neither a bracket nor a comma. -/
def isPlainChar (c : Char) : Bool := !isOpening c && !isClosing c && c ≠ ','

/-! ## §1 One character -/

theorem splitWithin_opening {c : Char} (h : isOpening c = true) (depth : Nat) (cs : List Char) :
    splitWithin depth (c :: cs) = (splitWithin (depth + 1) cs).map (consFirst c) := by
  rw [splitWithin, if_pos h]

theorem splitWithin_closing {c : Char} (h : isClosing c = true) (depth : Nat) (cs : List Char) :
    splitWithin (depth + 1) (c :: cs) = (splitWithin depth cs).map (consFirst c) := by
  have hopening : isOpening c = false := by
    rcases Bool.or_eq_true _ _ ▸ h with h | h <;> rw [of_decide_eq_true h] <;> rfl
  simp [splitWithin, hopening, h]

/-- A comma is cut at when no bracket is open. -/
theorem splitWithin_comma (cs : List Char) : splitWithin 0 (',' :: cs) = (splitWithin 0 cs).map ([] :: ·) := rfl

theorem splitWithin_comma_inside (depth : Nat) (cs : List Char) :
    splitWithin (depth + 1) (',' :: cs) = (splitWithin (depth + 1) cs).map (consFirst ',') := rfl

theorem splitWithin_plain {c : Char} (h : isPlainChar c = true) (depth : Nat) (cs : List Char) :
    splitWithin depth (c :: cs) = (splitWithin depth cs).map (consFirst c) := by
  simp only [isPlainChar, Bool.and_eq_true, Bool.not_eq_eq_eq_not, Bool.not_true, ne_eq, decide_not,
    decide_eq_false_iff_not] at h
  simp [splitWithin, h]

theorem noBracket_of_isPlainChar {c : Char} (h : isPlainChar c = true) : isOpening c = false ∧ isClosing c = false := by
  simp only [isPlainChar, Bool.and_eq_true, Bool.not_eq_eq_eq_not, Bool.not_true] at h
  exact h.1

/-! ## §2 Uncut texts -/

/-- A text that is not cut at commas. -/
def Uncut (s : List Char) : Prop :=
  ∀ depth rest, splitWithin depth (s ++ rest) = (splitWithin depth rest).map (prefixFirst s)

/-- A text that is not cut at commas when it stands between brackets. -/
def UncutInside (s : List Char) : Prop :=
  ∀ depth rest, splitWithin (depth + 1) (s ++ rest) = (splitWithin (depth + 1) rest).map (prefixFirst s)

theorem prefixFirst_singleton (c : Char) : prefixFirst [c] = consFirst c := by
  funext parts
  cases parts <;> rfl

theorem prefixFirst_append (s t : List Char) : prefixFirst (s ++ t) = prefixFirst s ∘ prefixFirst t := by
  funext parts
  cases parts with
  | nil => rfl
  | cons p ps => simp [prefixFirst]

/-- There is always a first part. -/
theorem ne_nil_of_splitWithin {depth : Nat} {s : List Char} {parts : List (List Char)}
    (h : splitWithin depth s = some parts) : parts ≠ [] := by
  -- A character in front of what is split belongs to the first part, so there is one.
  have hfirst : ∀ (c : Char) (o : Option (List (List Char))), o.map (consFirst c) = some parts → parts ≠ [] := by
    intro c o ho
    obtain ⟨parts', -, rfl⟩ := Option.map_eq_some_iff.mp ho
    cases parts' <;> simp [consFirst]
  cases s with
  | nil =>
    simp only [splitWithin, Option.ite_none_right_eq_some, Option.some.injEq] at h
    exact h.2 ▸ List.cons_ne_nil _ _
  | cons c cs =>
    simp only [splitWithin] at h
    split at h
    · exact hfirst c _ h
    · split at h
      · split at h
        · cases h
        · exact hfirst c _ h
      · split at h
        · obtain ⟨parts', -, rfl⟩ := Option.map_eq_some_iff.mp h
          exact List.cons_ne_nil _ _
        · exact hfirst c _ h

theorem uncut_nil : Uncut [] := by
  intro depth rest
  rw [List.nil_append]
  cases h : splitWithin depth rest with
  | none => rfl
  | some parts =>
    obtain ⟨p, ps, rfl⟩ := List.exists_cons_of_ne_nil (ne_nil_of_splitWithin h)
    rfl

theorem Uncut.append {s t : List Char} (hs : Uncut s) (ht : Uncut t) : Uncut (s ++ t) := by
  intro depth rest
  rw [List.append_assoc, hs, ht, Option.map_map, prefixFirst_append]

theorem Uncut.inside {s : List Char} (h : Uncut s) : UncutInside s := fun depth rest => h (depth + 1) rest

theorem UncutInside.append {s t : List Char} (hs : UncutInside s) (ht : UncutInside t) : UncutInside (s ++ t) := by
  intro depth rest
  rw [List.append_assoc, hs, ht, Option.map_map, prefixFirst_append]

/-- Characters that are neither brackets nor commas keep the depth and are never cut at. -/
theorem uncut_of_plain {s : List Char} (h : ∀ c ∈ s, isPlainChar c = true) : Uncut s := by
  induction s with
  | nil => exact uncut_nil
  | cons c s ih =>
    have hhead : Uncut [c] := by
      intro depth rest
      rw [List.singleton_append, splitWithin_plain (h c List.mem_cons_self), prefixFirst_singleton]
    exact hhead.append (ih fun d hd => h d (List.mem_cons_of_mem c hd))

theorem uncutInside_comma : UncutInside [','] := by
  intro depth rest
  rw [List.singleton_append, splitWithin_comma_inside, prefixFirst_singleton]

theorem uncutInside_intercalate {parts : List (List Char)} (h : ∀ p ∈ parts, Uncut p) :
    UncutInside ([','].intercalate parts) := by
  induction parts with
  | nil => exact uncut_nil.inside
  | cons p parts ih =>
    have hp := (h p List.mem_cons_self).inside
    have hrest := ih fun q hq => h q (List.mem_cons_of_mem p hq)
    cases parts with
    | nil => simpa using hp
    | cons q parts =>
      rw [List.intercalate_cons_cons]
      exact (hp.append uncutInside_comma).append hrest

theorem Brackets.isOpening {opening closing : Char} (h : Brackets opening closing) : isOpening opening = true := by
  cases h <;> rfl

theorem Brackets.isClosing {opening closing : Char} (h : Brackets opening closing) : isClosing closing = true := by
  cases h <;> rfl

/-- A pair of brackets protects what stands between them. -/
theorem UncutInside.brackets {s : List Char} (h : UncutInside s) {opening closing : Char}
    (hbrackets : Brackets opening closing) : Uncut (opening :: (s ++ [closing])) := by
  intro depth rest
  -- Between the brackets the depth is greater by one, so that no comma there is cut at.
  rw [List.cons_append, splitWithin_opening hbrackets.isOpening, List.append_assoc, h, List.singleton_append,
    splitWithin_closing hbrackets.isClosing, Option.map_map, Option.map_map, ← prefixFirst_singleton,
    ← prefixFirst_singleton, ← prefixFirst_append, ← prefixFirst_append]
  rfl

/-- And so do the brackets around parts that are uncut themselves. -/
theorem uncut_brackets {opening closing : Char} (hbrackets : Brackets opening closing) {parts : List (List Char)}
    (h : ∀ p ∈ parts, Uncut p) : Uncut (opening :: ([','].intercalate parts ++ [closing])) :=
  (uncutInside_intercalate h).brackets hbrackets

/-! ## §3 Uncut parts -/

theorem Uncut.splitWithin_eq {s : List Char} (h : Uncut s) : splitWithin 0 s = some [s] := by
  have halone := h 0 []
  rw [List.append_nil] at halone
  rw [halone]
  simp [splitWithin, prefixFirst]

/-- Uncut parts with commas between them are cut at these commas. -/
theorem splitWithin_intercalate {parts : List (List Char)} (hne : parts ≠ []) (h : ∀ p ∈ parts, Uncut p) :
    splitWithin 0 ([','].intercalate parts) = some parts := by
  induction parts with
  | nil => exact absurd rfl hne
  | cons p parts ih =>
    have hp := h p List.mem_cons_self
    cases parts with
    | nil =>
      rw [List.intercalate_singleton]
      exact hp.splitWithin_eq
    | cons q parts =>
      -- `p` is not cut, so the first cut is at the comma behind it.
      have hrest := ih (List.cons_ne_nil q parts) fun r hr => h r (List.mem_cons_of_mem p hr)
      rw [List.intercalate_cons_cons, List.append_assoc, hp, List.singleton_append, splitWithin_comma, hrest]
      simp [prefixFirst]

theorem splitTopLevel_intercalate {parts : List (List Char)} (hne : parts ≠ []) (h : ∀ p ∈ parts, Uncut p) :
    splitTopLevel ([','].intercalate parts) = some (parts.map trim) := by
  rw [splitTopLevel, splitWithin_intercalate hne h, Option.map_some]

/-! ## §4 Depths -/

/-- The number of open brackets behind a character, with `depth` of them before it. There is none when the character
closes a bracket that is not open, and at a comma that is cut at. -/
def depthAfter (depth : Nat) (c : Char) : Option Nat :=
  if isOpening c then some (depth + 1)
  else if isClosing c then (if depth = 0 then none else some (depth - 1))
  else if c = ',' && depth = 0 then none
  else some depth

/-- The number of open brackets behind a text, with `depth` of them before it. -/
def depthBehind (depth : Nat) (s : List Char) : Option Nat := s.foldlM depthAfter depth

theorem depthBehind_cons (depth : Nat) (c : Char) (cs : List Char) :
    depthBehind depth (c :: cs) = (depthAfter depth c).bind fun d => depthBehind d cs :=
  List.foldlM_cons

theorem depthBehind_append (depth : Nat) (s t : List Char) :
    depthBehind depth (s ++ t) = (depthBehind depth s).bind fun d => depthBehind d t :=
  List.foldlM_append

theorem depthBehind_append_eq_some_iff {depth d : Nat} {s t : List Char} :
    depthBehind depth (s ++ t) = some d ↔ ∃ m, depthBehind depth s = some m ∧ depthBehind m t = some d := by
  rw [depthBehind_append, Option.bind_eq_some_iff]

theorem depthAfter_plain {c : Char} (h : isPlainChar c = true) (depth : Nat) : depthAfter depth c = some depth := by
  simp only [isPlainChar, Bool.and_eq_true, Bool.not_eq_eq_eq_not, Bool.not_true, ne_eq, decide_not,
    decide_eq_false_iff_not] at h
  simp [depthAfter, h]

theorem depthBehind_cons_plain {c : Char} (h : isPlainChar c = true) (depth : Nat) (cs : List Char) :
    depthBehind depth (c :: cs) = depthBehind depth cs := by
  rw [depthBehind_cons, depthAfter_plain h, Option.bind_some]

theorem depthBehind_plain {s : List Char} (h : ∀ c ∈ s, isPlainChar c = true) (depth : Nat) :
    depthBehind depth s = some depth := by
  induction s with
  | nil => rfl
  | cons c s ih =>
    rw [depthBehind_cons_plain (h c List.mem_cons_self)]
    exact ih fun d hd => h d (List.mem_cons_of_mem c hd)

/-- Further brackets that are open around a text stay open. -/
theorem depthAfter_add {depth d : Nat} {c : Char} (h : depthAfter depth c = some d) (k : Nat) :
    depthAfter (depth + k) c = some (d + k) := by
  unfold depthAfter at h ⊢
  grind

theorem depthBehind_add {depth d : Nat} {s : List Char} (h : depthBehind depth s = some d) (k : Nat) :
    depthBehind (depth + k) s = some (d + k) := by
  induction s generalizing depth with
  | nil =>
    obtain rfl := Option.some.inj h
    rfl
  | cons c s ih =>
    rw [depthBehind_cons, Option.bind_eq_some_iff] at h
    obtain ⟨m, hc, hs⟩ := h
    rw [depthBehind_cons, depthAfter_add hc]
    exact ih hs

/-- A character that is not cut at stays with what follows it. -/
theorem splitWithin_cons {depth d : Nat} {c : Char} (h : depthAfter depth c = some d) (cs : List Char) :
    splitWithin depth (c :: cs) = (splitWithin d cs).map (consFirst c) := by
  unfold depthAfter at h
  grind [splitWithin]

/-- Where there is no depth behind a character, the text is cut there or cannot be cut at all. -/
theorem of_splitWithin_cons {depth : Nat} {c : Char} {cs : List Char} {parts : List (List Char)}
    (h : splitWithin depth (c :: cs) = some parts) (hc : depthAfter depth c = none) :
    depth = 0 ∧ c = ',' ∧ ∃ rest, splitWithin 0 cs = some rest ∧ parts = [] :: rest := by
  have hcomma : depth = 0 ∧ c = ',' := by
    unfold depthAfter at hc
    unfold splitWithin at h
    grind
  obtain ⟨rfl, rfl⟩ := hcomma
  rw [splitWithin_comma, Option.map_eq_some_iff] at h
  obtain ⟨rest, hrest, rfl⟩ := h
  exact ⟨rfl, rfl, rest, hrest, rfl⟩

theorem splitWithin_append {depth d : Nat} {s : List Char} (h : depthBehind depth s = some d) (rest : List Char) :
    splitWithin depth (s ++ rest) = (splitWithin d rest).map (prefixFirst s) := by
  induction s generalizing depth with
  | nil =>
    obtain rfl := Option.some.inj h
    exact uncut_nil depth rest
  | cons c s ih =>
    rw [depthBehind_cons, Option.bind_eq_some_iff] at h
    obtain ⟨m, hc, hs⟩ := h
    rw [List.cons_append, splitWithin_cons hc, ih hs, Option.map_map, ← prefixFirst_singleton, ← prefixFirst_append]
    rfl

/-- The first part closes the brackets that are open before it, and the other parts close their own ones. -/
theorem of_splitWithin {depth : Nat} {s p : List Char} {ps : List (List Char)}
    (h : splitWithin depth s = some (p :: ps)) :
    depthBehind depth p = some 0 ∧ (∀ q ∈ ps, depthBehind 0 q = some 0) ∧ s = [','].intercalate (p :: ps) := by
  -- By induction on the text; the depth is that in front of what is left of the first part.
  induction s generalizing depth p ps with
  | nil =>
    simp only [splitWithin, Option.ite_none_right_eq_some, Option.some.injEq, List.cons.injEq] at h
    obtain ⟨rfl, rfl, rfl⟩ := h
    exact ⟨rfl, List.forall_mem_nil _, rfl⟩
  | cons c cs ih =>
    cases hc : depthAfter depth c with
    | some d =>
      rw [splitWithin_cons hc, Option.map_eq_some_iff] at h
      obtain ⟨parts, hparts, hcons⟩ := h
      obtain ⟨q, qs, rfl⟩ := List.exists_cons_of_ne_nil (ne_nil_of_splitWithin hparts)
      obtain ⟨rfl, rfl⟩ := List.cons.inj hcons
      obtain ⟨hq, hqs, rfl⟩ := ih hparts
      refine ⟨?_, hqs, ?_⟩
      · rw [depthBehind_cons, hc]
        exact hq
      · cases qs <;> simp
    | none =>
      -- A comma outside brackets ends the part, and the rest starts at depth zero.
      obtain ⟨rfl, rfl, parts, hparts, hcons⟩ := of_splitWithin_cons h hc
      obtain ⟨rfl, rfl⟩ := List.cons.inj hcons
      obtain ⟨q, qs, rfl⟩ := List.exists_cons_of_ne_nil (ne_nil_of_splitWithin hparts)
      obtain ⟨hq, hqs, rfl⟩ := ih hparts
      exact ⟨rfl, List.forall_mem_cons.mpr ⟨hq, hqs⟩, by simp⟩

/-- A text is uncut when it closes the brackets that it opens and has no comma outside of them. -/
theorem uncut_iff {s : List Char} : Uncut s ↔ depthBehind 0 s = some 0 := by
  refine ⟨fun h => (of_splitWithin h.splitWithin_eq).1, fun h depth rest => ?_⟩
  have hdepth := depthBehind_add h depth
  rw [Nat.zero_add] at hdepth
  exact splitWithin_append hdepth rest

theorem Uncut.depthBehind {s : List Char} (h : Uncut s) (depth : Nat) : depthBehind depth s = some depth := by
  have hdepth := depthBehind_add (uncut_iff.mp h) depth
  rwa [Nat.zero_add] at hdepth

/-! ## §5 Parts -/

theorem splitWithin_eq_some_iff {s : List Char} {parts : List (List Char)} :
    splitWithin 0 s = some parts ↔ parts ≠ [] ∧ (∀ p ∈ parts, Uncut p) ∧ s = [','].intercalate parts := by
  refine ⟨fun h => ?_, fun h => ?_⟩
  · obtain ⟨p, ps, rfl⟩ := List.exists_cons_of_ne_nil (ne_nil_of_splitWithin h)
    obtain ⟨hp, hps, hs⟩ := of_splitWithin h
    exact ⟨List.cons_ne_nil p ps, List.forall_mem_cons.mpr ⟨uncut_iff.mpr hp, fun q hq => uncut_iff.mpr (hps q hq)⟩, hs⟩
  · obtain ⟨hne, huncut, rfl⟩ := h
    exact splitWithin_intercalate hne huncut

/-- The parts of a text are trimmed texts that are uncut and stand between its commas. -/
theorem splitTopLevel_eq_some_iff {s : List Char} {parts : List (List Char)} :
    splitTopLevel s = some parts ↔
      ∃ texts : List (List Char), texts ≠ [] ∧ (∀ p ∈ texts, Uncut p) ∧ s = [','].intercalate texts ∧
        parts = texts.map trim := by
  rw [splitTopLevel, Option.map_eq_some_iff]
  simp only [splitWithin_eq_some_iff, and_assoc, eq_comm (a := parts)]

theorem intercalate_append {parts parts' : List (List Char)} (h : parts ≠ []) (h' : parts' ≠ []) :
    [','].intercalate (parts ++ parts') = [','].intercalate parts ++ ',' :: [','].intercalate parts' := by
  obtain ⟨q, qs, rfl⟩ := List.exists_cons_of_ne_nil h'
  induction parts with
  | nil => exact absurd rfl h
  | cons p parts ih =>
    cases parts with
    | nil => simp
    | cons r parts =>
      rw [List.cons_append, List.cons_append, List.intercalate_cons_cons, ← List.cons_append,
        ih (List.cons_ne_nil r parts), List.intercalate_cons_cons, List.append_assoc _ _ (',' :: _)]

/-- Two texts with a comma between them have the parts of both. -/
theorem splitTopLevel_append {s s' : List Char} {parts parts' : List (List Char)} (h : splitTopLevel s = some parts)
    (h' : splitTopLevel s' = some parts') : splitTopLevel (s ++ ',' :: s') = some (parts ++ parts') := by
  obtain ⟨texts, hne, huncut, rfl, rfl⟩ := splitTopLevel_eq_some_iff.mp h
  obtain ⟨texts', hne', huncut', rfl, rfl⟩ := splitTopLevel_eq_some_iff.mp h'
  rw [← intercalate_append hne hne', splitTopLevel_intercalate, List.map_append]
  · simp [hne]
  · exact List.forall_mem_append.mpr ⟨huncut, huncut'⟩

end Phrasebook
