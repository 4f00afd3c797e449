import Phrasebook.Parameter.List
import Phrasebook.Proofs.Source.TagRewriting
import Mathlib.Data.List.Basic
import Mathlib.Data.List.TakeWhile

/-!
# Spellings of a tag

A parameter list can be written as a tag in several ways: as it is, between angle brackets, with a second mark
there, and with escapes for the characters that a tag may not hold. The rewriting of tags brings all of them to the
one with escapes, and the escapes are read back, so that a text gets the same tag from each.

What begins like a URI of tags is left between its angle brackets, and there the reader drops it.

## Layers

1. **Characters**: a tag may hold a character of a parameter list, or the character is one of five.
2. **One tag**: the forms that a tag has after it is rewritten.
3. **One line**: the rewriting finds the tag behind a key, up to the next blank.
4. **Reading**: escapes behind a mark are read back character by character, by induction on the parameter list.
5. **Lexing**: the tokens of a line with a tag.
6. **Spellings**: every spelling is read as the parameter list.
-/

namespace Phrasebook

open Phrasebook.Name Phrasebook.Text

/-! ## §1 Characters -/

namespace SourceTag

/-- A character of a parameter list that a spelling is compared for. -/
def isListChar (c : Char) : Bool := isAlphanumeric c || "_.:,<>[]?*".toList.contains c

/-- The characters of a parameter list that a tag may not hold. -/
def heldBack : List Char := [',', '<', '>', '[', ']']

/-- A character as it stands in a tag with escapes. -/
def markEscape (c : Char) : List Char :=
  if c = ',' then ['%', '2', 'C']
  else if c = '<' then ['%', '3', 'C']
  else if c = '>' then ['%', '3', 'E']
  else if c = '[' then ['%', '5', 'B']
  else if c = ']' then ['%', '5', 'D']
  else [c]

/-- A parameter list with escapes. -/
def percentEscaped (s : String) : String := String.ofList (s.toList.flatMap markEscape)

theorem isAlphanumeric_iff {c : Char} : isAlphanumeric c = true ↔
    ('0' ≤ c ∧ c ≤ '9') ∨ ('a' ≤ c ∧ c ≤ 'z') ∨ ('A' ≤ c ∧ c ≤ 'Z') := by
  simp only [isAlphanumeric, isLetter, isDigit, isCapital, Bool.or_eq_true, Bool.and_eq_true, decide_eq_true_eq]
  rw [or_comm]

theorem isWordChar_of_isAlphanumeric {c : Char} (h : isAlphanumeric c = true) : Yaml.isWordChar c = true := by
  rw [isAlphanumeric_iff] at h
  simp only [Yaml.isWordChar, Bool.or_eq_true, Bool.and_eq_true, decide_eq_true_eq]
  exact .inl (.inl (by rwa [or_assoc]))

/-- The marks of a parameter list that a tag may hold. -/
def heldMarks : List Char := ['_', '.', ':', '?', '*']

/-- The characters of a parameter list that a tag may hold. -/
def Held (c : Char) : Prop := isAlphanumeric c = true ∨ c ∈ heldMarks

theorem held_or_heldBack {c : Char} (h : isListChar c = true) : Held c ∨ c ∈ heldBack := by
  rw [isListChar, Bool.or_eq_true, List.contains_iff_mem] at h
  rcases h with hword | hmark
  · exact .inl (.inl hword)
  · have hmarks : "_.:,<>[]?*".toList = ['_', '.', ':', ',', '<', '>', '[', ']', '?', '*'] := rfl
    rw [hmarks] at hmark
    simp only [Held, heldMarks, heldBack, List.mem_cons, List.not_mem_nil, or_false] at hmark ⊢
    grind

namespace Held

variable {c : Char} (h : Held c)
include h

theorem ne {d : Char} (hword : isAlphanumeric d = false) (hmark : d ∉ heldMarks) : c ≠ d := by
  rintro rfl
  rcases h with hc | hc
  · rw [hword] at hc
    cases hc
  · exact hmark hc

/-- It stands for itself. -/
theorem markEscape_eq : markEscape c = [c] := by
  have hcomma : c ≠ ',' := h.ne rfl (by decide)
  have hless : c ≠ '<' := h.ne rfl (by decide)
  have hgreater : c ≠ '>' := h.ne rfl (by decide)
  have hopen : c ≠ '[' := h.ne rfl (by decide)
  have hclose : c ≠ ']' := h.ne rfl (by decide)
  simp only [markEscape, hcomma, hless, hgreater, hopen, hclose, ↓reduceIte]

theorem isTagChar : SourceTag.isTagChar c = true := by
  rcases h with hword | hmark
  · rw [SourceTag.isTagChar, hword, Bool.true_or]
  · have hmarks : heldMarks.all SourceTag.isTagChar = true := by decide
    exact List.all_eq_true.mp hmarks c hmark

theorem isTagChar_yaml : Yaml.isTagChar false c = true := by
  rcases h with hword | hmark
  · rw [Yaml.isTagChar, isWordChar_of_isAlphanumeric hword, Bool.true_or, Bool.true_or]
  · have hmarks : heldMarks.all (Yaml.isTagChar false) = true := by decide
    exact List.all_eq_true.mp hmarks c hmark

end Held

/-- A character that is held back is written as an octet, which is read back. -/
theorem exists_octet {c : Char} (h : c ∈ heldBack) :
    ∃ a b, markEscape c = ['%', a, b] ∧ writtenChar c = ['%', a, b] ∧ Held a ∧ Held b ∧
      ∀ rest, Yaml.escapedChar? ('%' :: a :: b :: rest) = some (some c, 1, rest) := by
  simp only [heldBack, List.mem_cons, List.not_mem_nil, or_false] at h
  rcases h with rfl | rfl | rfl | rfl | rfl
  · exact ⟨'2', 'C', rfl, by decide +kernel, .inl rfl, .inl rfl, fun _ => rfl⟩
  · exact ⟨'3', 'C', rfl, by decide +kernel, .inl rfl, .inl rfl, fun _ => rfl⟩
  · exact ⟨'3', 'E', rfl, by decide +kernel, .inl rfl, .inl rfl, fun _ => rfl⟩
  · exact ⟨'5', 'B', rfl, by decide +kernel, .inl rfl, .inl rfl, fun _ => rfl⟩
  · exact ⟨'5', 'D', rfl, by decide +kernel, .inl rfl, .inl rfl, fun _ => rfl⟩

/-- What a tag may hold is visible and of one octet. -/
theorem visible_of_isTagChar {c : Char} (h : isTagChar c = true) : 0x20 < c.toNat ∧ c.toNat ≤ 0x7E := by
  rw [isTagChar, Bool.or_eq_true, List.contains_iff_mem] at h
  rcases h with hword | hmark
  -- The three ranges of characters lie within the visible ones.
  · have hnat : c.toNat = c.val.toNat := rfl
    simp only [isAlphanumeric_iff, Char.le_def, UInt32.le_iff_toNat_le] at hword
    rcases hword with ⟨hlow, hhigh⟩ | ⟨hlow, hhigh⟩ | ⟨hlow, hhigh⟩
    · have hlow : 48 ≤ c.val.toNat := hlow
      have hhigh : c.val.toNat ≤ 57 := hhigh
      omega
    · have hlow : 97 ≤ c.val.toNat := hlow
      have hhigh : c.val.toNat ≤ 122 := hhigh
      omega
    · have hlow : 65 ≤ c.val.toNat := hlow
      have hhigh : c.val.toNat ≤ 90 := hhigh
      omega
  · have hmarks : tagMarks.all (fun d => decide (0x20 < d.toNat ∧ d.toNat ≤ 0x7E)) = true := by decide
    exact of_decide_eq_true (List.all_eq_true.mp hmarks c hmark)

theorem isBlank_of_isTagChar {c : Char} (h : isTagChar c = true) : isBlank c = false := by
  obtain ⟨hlow, hhigh⟩ := visible_of_isTagChar h
  simp only [isBlank, Bool.or_eq_false_iff, Bool.and_eq_false_iff, decide_eq_false_iff_not, beq_eq_false_iff_ne]
  omega

/-- No character of a parameter list is a blank. -/
theorem isBlank_of_isListChar {c : Char} (h : isListChar c = true) : isBlank c = false := by
  rcases held_or_heldBack h with hheld | hback
  · exact isBlank_of_isTagChar hheld.isTagChar
  · have hmarks : heldBack.all (fun d => !isBlank d) = true := by decide
    simpa using List.all_eq_true.mp hmarks c hback

/-! ## §2 One tag -/

/-- A text that begins with a letter. -/
def LetterFirst (s : List Char) : Prop := ∃ c cs, s = c :: cs ∧ isLetter c = true

theorem held_of_isLetter {c : Char} (h : isLetter c = true) : Held c := by
  left
  rw [isAlphanumeric, h, Bool.true_or]

/-- What a tag may not hold is escaped when the tag is rewritten. -/
theorem writtenChar_eq_markEscape {c : Char} (h : isListChar c = true) : writtenChar c = markEscape c := by
  rcases held_or_heldBack h with hheld | hback
  · rw [hheld.markEscape_eq, writtenChar, if_pos hheld.isTagChar]
  · obtain ⟨a, b, hescape, hwritten, -⟩ := exists_octet hback
    rw [hescape, hwritten]

theorem flatMap_writtenChar {s : List Char} (h : ∀ c ∈ s, isListChar c = true) :
    s.flatMap writtenChar = s.flatMap markEscape :=
  List.flatMap_congr fun c hc => writtenChar_eq_markEscape (h c hc)

/-- An escaped parameter list has only characters that a tag may hold. -/
theorem isTagChar_of_mem_escaped {s : List Char} (h : ∀ c ∈ s, isListChar c = true) {d : Char}
    (hd : d ∈ s.flatMap markEscape) : isTagChar d = true := by
  obtain ⟨c, hc, hd⟩ := List.mem_flatMap.mp hd
  rcases held_or_heldBack (h c hc) with hheld | hback
  · rw [hheld.markEscape_eq, List.mem_singleton] at hd
    exact hd ▸ hheld.isTagChar
  · obtain ⟨a, b, hescape, -, ha, hb, -⟩ := exists_octet hback
    simp only [hescape, List.mem_cons, List.not_mem_nil, or_false] at hd
    rcases hd with rfl | rfl | rfl
    · rfl
    · exact ha.isTagChar
    · exact hb.isTagChar

/-- What a tag may hold is left alone when the tag is rewritten. -/
theorem flatMap_writtenChar_of_isTagChar {s : List Char} (h : ∀ c ∈ s, isTagChar c = true) :
    s.flatMap writtenChar = s := by
  have hkept : ∀ c ∈ s, writtenChar c = [c] := fun c hc => by rw [writtenChar, if_pos (h c hc)]
  rw [List.flatMap_congr hkept, List.flatMap_singleton']

/-- A tag with a payload is rewritten to the written form of the payload. -/
theorem normalizeToken?_of_payload? {token payload : List Char} (hmark : token ≠ ['!'])
    (hdouble : dropStart? ['!', '!'] token = none) (hpayload : payload? token = some payload) :
    normalizeToken? token =
      if '!' :: payload.flatMap writtenChar = token then none else some ('!' :: payload.flatMap writtenChar) := by
  rw [normalizeToken?, hdouble, hpayload]
  simp only [hmark, decide_false, Option.isSome_none, Bool.or_self, Bool.false_eq_true, ↓reduceIte]

/-- The form that a tag has after it is rewritten, changed or not. -/
theorem getD_normalizeToken? {token payload : List Char} (hmark : token ≠ ['!'])
    (hdouble : dropStart? ['!', '!'] token = none) (hpayload : payload? token = some payload) :
    (normalizeToken? token).getD token = '!' :: payload.flatMap writtenChar := by
  rw [normalizeToken?_of_payload? hmark hdouble hpayload]
  split
  · rename_i hsame
    exact hsame.symm
  · rfl

theorem LetterFirst.escaped {s : List Char} (h : LetterFirst s) : LetterFirst (s.flatMap markEscape) := by
  obtain ⟨c, cs, rfl, hc⟩ := h
  refine ⟨c, cs.flatMap markEscape, ?_, hc⟩
  rw [List.flatMap_cons, (held_of_isLetter hc).markEscape_eq]
  rfl

/-- Without a bracket behind its mark, a tag stands for what is behind the mark. -/
theorem payload?_mark {s : List Char} (h : s.head? ≠ some '<') : payload? ('!' :: s) = some s := by
  have hplain : dropStart? ['!', '<'] ('!' :: s) = none := by
    cases s with
    | nil => rfl
    | cons c s =>
      have hc : '<' ≠ c := fun heq => h (congrArg some heq.symm)
      simp [dropStart?, hc]
  rw [payload?, hplain]
  rfl

/-- A tag that begins with a letter is rewritten character by character. -/
theorem normalize_mark {w : List Char} (h : LetterFirst w) :
    (normalizeToken? ('!' :: w)).getD ('!' :: w) = '!' :: w.flatMap writtenChar := by
  obtain ⟨c, cs, rfl, hc⟩ := h
  have hbang : c ≠ '!' := (held_of_isLetter hc).ne rfl (by decide)
  have hless : c ≠ '<' := (held_of_isLetter hc).ne rfl (by decide)
  apply getD_normalizeToken?
  · simp
  · simp [dropStart?, Ne.symm hbang]
  · exact payload?_mark (by simpa using hless)

theorem payload?_brackets (w : List Char) :
    payload? ('!' :: '<' :: (w ++ ['>'])) =
      if (dropStart? ['t', 'a', 'g', ':'] w).isSome then none else some ((dropStart? ['!'] w).getD w) := by
  have hopen : dropStart? ['!', '<'] ('!' :: '<' :: (w ++ ['>'])) = some (w ++ ['>']) := rfl
  rw [payload?, hopen]
  simp only [dropEnd?_append]

/-- Between angle brackets, a tag loses them unless it is a URI of the scheme of tags. -/
theorem normalize_verbatim {w : List Char} (h : dropStart? ['t', 'a', 'g', ':'] w = none) :
    (normalizeToken? ('!' :: '<' :: (w ++ ['>']))).getD ('!' :: '<' :: (w ++ ['>']))
      = '!' :: ((dropStart? ['!'] w).getD w).flatMap writtenChar := by
  apply getD_normalizeToken?
  · simp
  · rfl
  · rw [payload?_brackets, h]
    rfl

/-! ## §3 One line -/

/-- The document of one key with a tagged text. -/
def taggedLine (token : List Char) : List Char := 'k' :: ':' :: ' ' :: (token ++ [' ', 'v'])

/-- A tag without blanks is rewritten where it stands. -/
theorem normalizeTags_taggedLine {w : List Char} (h : ∀ c ∈ w, isBlank c = false) :
    normalizeTags (taggedLine ('!' :: w))
      = taggedLine ((normalizeToken? ('!' :: w)).getD ('!' :: w)) := by
  have hbreak : '\n' ∉ taggedLine ('!' :: w) := by
    have hw : '\n' ∉ w := fun hmem => absurd (h '\n' hmem) (by decide)
    simp [taggedLine, hw]
  have hproper : (⟨0, taggedLine ('!' :: w), []⟩ : Line).Proper := by
    refine ⟨by simp [taggedLine], fun c hc => ?_, List.forall_mem_nil _⟩
    -- The line ends with its text, which is no line end.
    have hlast : (taggedLine ('!' :: w)).getLast? = some 'v' := by
      have hend : taggedLine ('!' :: w) = ('k' :: ':' :: ' ' :: '!' :: (w ++ [' '])) ++ ['v'] := by simp [taggedLine]
      rw [hend, List.getLast?_concat]
    cases hlast.symm.trans hc
    rfl
  have hline : Line.ofChars (taggedLine ('!' :: w)) = ⟨0, taggedLine ('!' :: w), []⟩ := by
    have hcut := hproper.ofChars_chars
    rwa [Line.chars, List.append_nil] at hcut
  have hrewritten : (rewriteLine .start ⟨0, taggedLine ('!' :: w), []⟩).1
      = ⟨0, taggedLine ((normalizeToken? ('!' :: w)).getD ('!' :: w)), []⟩ := by
    -- Behind the key stands the tag up to the first blank.
    have hstop : ∀ c, [' ', 'v'].head? = some c → isBlank c = true := fun c hc => by
      cases hc
      rfl
    have hvalue := rewriteValue_tag ⟨none, none⟩ 0 0 ['k', ':', ' '] h hstop
    show Line.mk 0 (rewriteValue ⟨none, none⟩ 0 0 ['k', ':', ' '] ('!' :: (w ++ [' ', 'v']))).1 [] = _
    rw [hvalue, List.append_assoc]
    rfl
  rw [normalizeTags, linesOf_of_not_mem (by simp [taggedLine]) hbreak, List.map_singleton, hline]
  show ((rewriteLine .start ⟨0, taggedLine ('!' :: w), []⟩).1 :: rewriteLines _ []).flatMap Line.chars = _
  rw [hrewritten, rewriteLines, List.flatMap_cons, List.flatMap_nil, List.append_nil, Line.chars, List.append_nil]
  rfl

/-! ## §4 Reading -/

/-- The escapes of a parameter list are read back, up to a blank. -/
theorem tagCharsFrom?_escaped {s : List Char} (h : ∀ c ∈ s, isListChar c = true) {fuel : Nat}
    (hfuel : s.length < fuel) (rest : List Char) :
    Yaml.tagCharsFrom? false fuel (s.flatMap markEscape ++ ' ' :: rest)
      = some (s.map some, (s.flatMap markEscape).length) := by
  induction s generalizing fuel with
  | nil =>
    obtain ⟨n, rfl⟩ : ∃ n, fuel = n + 1 := ⟨fuel - 1, by omega⟩
    rfl
  | cons c s ih =>
    rw [List.length_cons] at hfuel
    obtain ⟨n, rfl⟩ : ∃ n, fuel = n + 1 := ⟨fuel - 1, by omega⟩
    have htail := ih (fun d hd => h d (List.mem_cons_of_mem c hd)) (show s.length < n by omega)
    rcases held_or_heldBack (h c List.mem_cons_self) with hheld | hback
    · rw [List.flatMap_cons, hheld.markEscape_eq, List.singleton_append, List.cons_append, Yaml.tagCharsFrom?,
        hheld.isTagChar_yaml, htail]
      have hpercent : c ≠ '%' := hheld.ne rfl (by decide)
      simp only [Bool.not_true, Bool.false_eq_true, ↓reduceIte, hpercent]
      rfl
    · -- An octet is three characters of the tag but one step of the reader, so the fuel counts what is read back.
      obtain ⟨a, b, hescape, -, -, -, hread⟩ := exists_octet hback
      have hpercent : Yaml.isTagChar false '%' = true := by decide
      rw [List.flatMap_cons, hescape]
      show Yaml.tagCharsFrom? false (n + 1) ('%' :: a :: b :: (s.flatMap markEscape ++ ' ' :: rest)) = _
      rw [Yaml.tagCharsFrom?, hpercent, hread]
      simp only [Bool.not_true, Bool.false_eq_true, ↓reduceIte, Option.bind_eq_bind, Option.bind_some, htail]
      simp
      omega

theorem held_of_isWordChar {c : Char} (h : isListChar c = true) (hword : Yaml.isWordChar c = true) : Held c := by
  rcases held_or_heldBack h with hheld | hback
  · exact hheld
  · have hother : heldBack.all (fun d => !Yaml.isWordChar d) = true := by decide
    have hnone := List.all_eq_true.mp hother c hback
    rw [hword] at hnone
    cases hnone

theorem escaped_of_held {s : List Char} (h : ∀ c ∈ s, Held c) : s.flatMap markEscape = s := by
  rw [List.flatMap_congr fun c hc => (h c hc).markEscape_eq, List.flatMap_singleton']

theorem length_le_escaped (s : List Char) : s.length ≤ (s.flatMap markEscape).length := by
  induction s with
  | nil => exact Nat.le_refl 0
  | cons c s ih =>
    have hone : 0 < (markEscape c).length := by
      unfold markEscape
      grind
    rw [List.flatMap_cons, List.length_append, List.length_cons]
    omega

/-- No mark and no null character stands in a parameter list. -/
theorem ne_of_isListChar {c d : Char} (h : isListChar c = true) (hd : isListChar d = false) : c ≠ d := by
  rintro rfl
  rw [h] at hd
  cases hd

theorem untilNull_map {s : List Char} (h : ∀ c ∈ s, isListChar c = true) : Yaml.untilNull (s.map some) = s.map some := by
  unfold Yaml.untilNull
  rw [List.takeWhile_eq_self_iff]
  intro x hx
  obtain ⟨c, hc, rfl⟩ := List.mem_map.mp hx
  have hnull : c ≠ '\x00' := ne_of_isListChar (h c hc) (by decide)
  simpa using hnull

/-- A text is a word and what stands behind it. -/
theorem exists_word (s : List Char) : ∃ w r, s = w ++ r ∧ (∀ c ∈ w, Yaml.isWordChar c = true) ∧
    ∀ c, r.head? = some c → Yaml.isWordChar c = false := by
  refine ⟨s.takeWhile Yaml.isWordChar, s.dropWhile Yaml.isWordChar, List.takeWhile_append_dropWhile.symm, ?_, ?_⟩
  · exact fun c hc => List.mem_takeWhile_imp hc
  · intro c hc
    rw [← List.find?_not_eq_head?_dropWhile] at hc
    simpa using List.find?_some hc

/-- What stands behind the first word of an escaped parameter list is neither part of the word nor a mark. -/
theorem exists_behind_word {s : List Char} (h : ∀ c ∈ s, isListChar c = true)
    (hfirst : ∀ c, s.head? = some c → Yaml.isWordChar c = false) (rest : List Char) :
    ∃ d ds, s.flatMap markEscape ++ ' ' :: rest = d :: ds ∧ Yaml.isWordChar d = false ∧ d ≠ '!' := by
  cases s with
  | nil => exact ⟨' ', rest, rfl, by decide, by decide⟩
  | cons c s =>
    have hc := h c List.mem_cons_self
    -- The next character is kept as it is, or its escape begins with a percent sign.
    rcases held_or_heldBack hc with hheld | hback
    · refine ⟨c, s.flatMap markEscape ++ ' ' :: rest, ?_, hfirst c rfl, ne_of_isListChar hc (by decide)⟩
      rw [List.flatMap_cons, hheld.markEscape_eq]
      rfl
    · obtain ⟨a, b, hescape, -⟩ := exists_octet hback
      refine ⟨'%', a :: b :: (s.flatMap markEscape ++ ' ' :: rest), ?_, by decide, by decide⟩
      rw [List.flatMap_cons, hescape]
      rfl

/-- Behind a mark, a word that no second mark ends is read apart from what follows. -/
theorem handle?_word {w behind : List Char} (hw : ∀ c ∈ w, Yaml.isWordChar c = true)
    (hbehind : ∃ d ds, behind = d :: ds ∧ Yaml.isWordChar d = false ∧ d ≠ '!') (index line column : Nat) :
    Yaml.handle? ⟨'!' :: (w ++ behind), index, line, column⟩
      = some ('!' :: w, ⟨behind, index + (w.length + 1), line, column + (w.length + 1)⟩) := by
  obtain ⟨d, ds, rfl, hd, hmark⟩ := hbehind
  have hword : (w ++ d :: ds).takeWhile Yaml.isWordChar = w := by
    rw [List.takeWhile_append_of_pos hw, List.takeWhile_cons_of_neg (by simp [hd]), List.append_nil]
  have hskip : Yaml.Cursor.skip ⟨'!' :: (w ++ d :: ds), index, line, column⟩ (w.length + 1)
      = ⟨d :: ds, index + (w.length + 1), line, column + (w.length + 1)⟩ := by
    simp [Yaml.Cursor.skip]
  have hat : Yaml.Cursor.at? ⟨d :: ds, index + (w.length + 1), line, column + (w.length + 1)⟩ '!' = false := by
    simp [Yaml.Cursor.at?, Yaml.startsWhere, hmark]
  simp only [Yaml.handle?, hword, hskip, hat, Bool.false_eq_true, ↓reduceIte]

theorem isHandle_word {w : List Char} (hw : ∀ c ∈ w, Yaml.isWordChar c = true) : Yaml.isHandle ('!' :: w) = false := by
  rcases List.eq_nil_or_concat w with rfl | ⟨u, x, hu⟩
  · rfl
  · rw [List.concat_eq_append] at hu
    have hlast : ('!' :: w).getLast? = some x := by rw [hu, ← List.cons_append, List.getLast?_concat]
    have hx : x ≠ '!' := by
      rintro rfl
      exact absurd (hw '!' (by simp [hu])) (by decide)
    simp [Yaml.isHandle, hlast, hx]

theorem tagChars?_escaped {s : List Char} (h : ∀ c ∈ s, isListChar c = true) (rest : List Char)
    (index line column : Nat) :
    Yaml.tagChars? false ⟨s.flatMap markEscape ++ ' ' :: rest, index, line, column⟩
      = some (s.map some, (s.flatMap markEscape).length, ⟨' ' :: rest, index + (s.flatMap markEscape).length, line,
          column + (s.flatMap markEscape).length⟩) := by
  have hfuel : s.length < (s.flatMap markEscape ++ ' ' :: rest).length + 1 := by
    have hle := length_le_escaped s
    rw [List.length_append]
    omega
  -- The place moves on by what is written, not by what is read back.
  rw [Yaml.tagChars?, tagCharsFrom?_escaped h hfuel, Option.map_some, untilNull_map h]
  simp [Yaml.Cursor.skip]

/-- An escaped parameter list behind a mark is read as a tag with the parameter list as its text. -/
theorem tag?_escaped {s : List Char} (hletter : LetterFirst s) (h : ∀ c ∈ s, isListChar c = true) (rest : List Char)
    (index line column : Nat) :
    Yaml.tag? false ⟨'!' :: (s.flatMap markEscape ++ ' ' :: rest), index, line, column⟩
      = some (.tag ['!'] (s.map some), ⟨' ' :: rest, index + ((s.flatMap markEscape).length + 1), line,
          column + ((s.flatMap markEscape).length + 1)⟩) := by
  have hplain : Yaml.startsWhere (· == '<') (s.flatMap markEscape ++ ' ' :: rest) = false := by
    obtain ⟨c, cs, hstart, hc⟩ := hletter.escaped
    have hless : c ≠ '<' := (held_of_isLetter hc).ne rfl (by decide)
    rw [hstart]
    simpa [Yaml.startsWhere] using hless
  have hne : (s.map some).isEmpty = false := by
    obtain ⟨c, cs, rfl, -⟩ := hletter
    rfl
  have hsuffix := untilNull_map h
  -- The word behind the mark could begin an abbreviation, but no second mark ends it.
  obtain ⟨w, r, rfl, hw, hr⟩ := exists_word s
  have hwChars : ∀ c ∈ w, isListChar c = true := fun c hc => h c (List.mem_append_left r hc)
  have hrChars : ∀ c ∈ r, isListChar c = true := fun c hc => h c (List.mem_append_right w hc)
  have hescaped : (w ++ r).flatMap markEscape = w ++ r.flatMap markEscape := by
    rw [List.flatMap_append, escaped_of_held fun c hc => held_of_isWordChar (hwChars c hc) (hw c hc)]
  have hhandle := handle?_word hw (exists_behind_word hrChars hr rest) index line column
  rw [List.map_append] at hsuffix hne
  rw [hescaped, List.append_assoc] at hplain
  rw [Yaml.tag?, hescaped, List.append_assoc]
  simp only [List.drop_succ_cons, List.drop_zero, hplain, Bool.false_eq_true, ↓reduceIte, Yaml.shorthandTag?, hhandle,
    Option.bind_eq_bind, Option.bind_some, tagChars?_escaped hrChars, isHandle_word hw, List.tail_cons, hsuffix, hne]
  simp [Yaml.atWordEnd, Yaml.isGapOrBreak, Yaml.isGap]
  omega

/-! ## §5 Lexing -/

theorem isPrintable_of_isTagChar {c : Char} (h : isTagChar c = true) : Yaml.isPrintable c = true := by
  obtain ⟨hlow, hhigh⟩ := visible_of_isTagChar h
  simp [Yaml.isPrintable, hlow.le, hhigh]

/-- The tokens of the key up to its colon, the last one first. -/
def keyTokens : List Yaml.Token := [.value, .scalar ['k'] true, .key, .blockMappingStart]

/-- The lexer behind the colon. -/
def behindColon (rest : List Char) : Yaml.Lexer :=
  ⟨⟨rest, 2, 0, 2⟩, keyTokens, 4, 0, [-1], false, none, []⟩

/-- The lexer behind a tag of `n` characters. -/
def behindTag (tag : Yaml.TagText) (n : Nat) : Yaml.Lexer :=
  ⟨⟨[' ', 'v'], n + 4, 0, n + 4⟩, .tag ['!'] tag :: keyTokens, 5, 0, [-1], false, none, []⟩

theorem run_start (fuel : Nat) (rest : List Char) :
    Yaml.Lexer.run (fuel + 2) (.start ('k' :: ':' :: ' ' :: rest)) = Yaml.Lexer.run fuel (behindColon (' ' :: rest)) :=
  rfl

theorem run_behindTag (fuel n : Nat) (tag : Yaml.TagText) :
    (Yaml.Lexer.run (fuel + 2) (behindTag tag n)).map (·.tokens.reverse)
      = some (keyTokens.reverse ++ [.tag ['!'] tag, .scalar ['v'] true, .blockEnd, .streamEnd]) :=
  rfl

section Line

variable {s : List Char} (hletter : LetterFirst s) (h : ∀ c ∈ s, isListChar c = true)
include hletter h

theorem run_behindColon (fuel : Nat) :
    Yaml.Lexer.run (fuel + 1) (behindColon (' ' :: '!' :: (s.flatMap markEscape ++ [' ', 'v'])))
      = Yaml.Lexer.run fuel (behindTag (s.map some) (s.flatMap markEscape).length) := by
  -- The tag stands behind the three characters of the key, which need no break of a line.
  have htag := tag?_escaped hletter h ['v'] 3 0 3
  have hstep : Yaml.Lexer.run (fuel + 1) (behindColon (' ' :: '!' :: (s.flatMap markEscape ++ [' ', 'v'])))
      = ((Yaml.tag? false ⟨'!' :: (s.flatMap markEscape ++ [' ', 'v']), 3, 0, 3⟩).bind fun r =>
          some { (behindColon []).push r.1 r.2 with keyAllowed := false }).bind (Yaml.Lexer.run fuel) := rfl
  rw [hstep, htag, Option.bind_some, Option.bind_some]
  have hplace : 3 + ((s.flatMap markEscape).length + 1) = (s.flatMap markEscape).length + 4 := by omega
  rw [hplace]
  rfl

theorem tokens?_taggedLine :
    Yaml.tokens? (taggedLine ('!' :: s.flatMap markEscape))
      = some (keyTokens.reverse ++ [.tag ['!'] (s.map some), .scalar ['v'] true, .blockEnd, .streamEnd]) := by
  have hescaped : (s.flatMap markEscape).all Yaml.isPrintable = true :=
    List.all_eq_true.mpr fun c hc => isPrintable_of_isTagChar (isTagChar_of_mem_escaped h hc)
  have hprintable : (taggedLine ('!' :: s.flatMap markEscape)).all Yaml.isPrintable = true := by
    simp only [taggedLine, List.cons_append, List.all_cons, List.all_append, List.all_nil, hescaped]
    decide
  -- Two tokens up to the colon, one tag, two at the end: five steps, and the rest of the fuel is not needed.
  have hlength : (taggedLine ('!' :: s.flatMap markEscape)).length + 2
      = (s.flatMap markEscape).length + 3 + 2 + 1 + 2 := by
    simp [taggedLine]
  rw [Yaml.tokens?, if_pos hprintable, hlength]
  show (Yaml.Lexer.run _ (.start ('k' :: ':' :: ' ' :: '!' :: (s.flatMap markEscape ++ [' ', 'v'])))).map _ = _
  rw [run_start, run_behindColon hletter h, run_behindTag]

end Line

theorem tagText?_map (s : List Char) : Yaml.Scalar.tagText? (s.map some) = some s := by
  unfold Yaml.Scalar.tagText?
  induction s with
  | nil => rfl
  | cons c s ih =>
    rw [List.map_cons, List.mapM_cons, ih]
    rfl

/-- A text behind a mark is a tag of the application's own. -/
theorem ownTag?_map {s : List Char} (h : s ≠ []) :
    Yaml.Scalar.ownTag? (some (some '!' :: s.map some)) = some (String.ofList s) := by
  have hne : (s.map some).isEmpty = false := by simpa using h
  simp only [Yaml.Scalar.ownTag?, hne, Bool.false_eq_true, ↓reduceIte, tagText?_map, Option.map_some]

/-! ## §6 Spellings -/

/-- An escaped parameter list is the tag that the text gets. -/
theorem readYaml_of_normalizeTags {s text : String} (hletter : LetterFirst s.toList)
    (h : ∀ c ∈ s.toList, isListChar c = true) (hblank : allBlank text = false)
    (hnormal : normalizeTags text.toList = taggedLine ('!' :: s.toList.flatMap markEscape)) :
    SourceTree.readYaml text = .ok (.entry ⟨"v", some s⟩) := by
  have hown : Yaml.Scalar.ownTag? (some (some '!' :: s.toList.map some)) = some s := by
    obtain ⟨c, cs, hs, -⟩ := hletter
    rw [ownTag?_map (by rw [hs]; exact List.cons_ne_nil c cs), String.ofList_toList]
  -- The tag begins with a letter, so the reader drops no mark of its own.
  have hbare : SourceTree.bareTag s = s := by
    obtain ⟨c, cs, hs, hc⟩ := hletter
    have hmark : c ≠ '!' := (held_of_isLetter hc).ne rfl (by decide)
    rw [SourceTree.bareTag, hs, List.dropWhile_cons_of_neg (by simp [hmark]), ← hs, String.ofList_toList]
  have hdocument : (Yaml.tokens? (taggedLine ('!' :: s.toList.flatMap markEscape))).bind Yaml.Node.document?
      = some (some (.entry ⟨none, some (some '!' :: s.toList.map some)⟩ ['v'] true)) := by
    rw [tokens?_taggedLine hletter h]
    rfl
  have hread := SourceTree.readDocument_entry _ _ _ hdocument hown rfl
  rw [SourceTree.readYaml_eq_readDocument hblank, hnormal, hread, Option.map_some, hbare]

section Spellings

variable {s : String} (hletter : LetterFirst s.toList) (h : ∀ c ∈ s.toList, isListChar c = true)
include hletter h

/-- A spelling that is rewritten to the escaped parameter list is read as the parameter list. -/
theorem readYaml_of_spelling {text : String} {w : List Char} (htext : text.toList = taggedLine ('!' :: w))
    (hblank : ∀ c ∈ w, isBlank c = false)
    (hrewritten : (normalizeToken? ('!' :: w)).getD ('!' :: w) = '!' :: s.toList.flatMap markEscape) :
    SourceTree.readYaml text = .ok (.entry ⟨"v", some s⟩) := by
  apply readYaml_of_normalizeTags hletter h
  · rw [allBlank, htext]
    rfl
  · rw [htext, normalizeTags_taggedLine hblank, hrewritten]

theorem readYaml_mark : SourceTree.readYaml ("k: !" ++ s ++ " v") = .ok (.entry ⟨"v", some s⟩) := by
  apply readYaml_of_spelling hletter h (w := s.toList)
  · simp [taggedLine]
  · exact fun c hc => isBlank_of_isListChar (h c hc)
  · rw [normalize_mark hletter, flatMap_writtenChar h]

theorem readYaml_escaped : SourceTree.readYaml ("k: !" ++ percentEscaped s ++ " v") = .ok (.entry ⟨"v", some s⟩) := by
  have hchars : ∀ c ∈ s.toList.flatMap markEscape, isTagChar c = true := fun c hc => isTagChar_of_mem_escaped h hc
  apply readYaml_of_spelling hletter h (w := s.toList.flatMap markEscape)
  · simp [taggedLine, percentEscaped]
  · exact fun c hc => isBlank_of_isTagChar (hchars c hc)
  · rw [normalize_mark hletter.escaped, flatMap_writtenChar_of_isTagChar hchars]

/-- What stands between angle brackets is the parameter list, with or without a mark of its own. -/
theorem readYaml_brackets {inner : String} (hscheme : dropStart? ['t', 'a', 'g', ':'] inner.toList = none)
    (hinner : inner.toList = s.toList ∨ inner.toList = '!' :: s.toList) :
    SourceTree.readYaml ("k: !<" ++ inner ++ "> v") = .ok (.entry ⟨"v", some s⟩) := by
  have hchars : ∀ c ∈ s.toList, isBlank c = false := fun c hc => isBlank_of_isListChar (h c hc)
  have hwithin : ∀ c ∈ inner.toList, isBlank c = false := by
    rcases hinner with heq | heq
    · rw [heq]
      exact hchars
    · rw [heq]
      exact List.forall_mem_cons.mpr ⟨by decide, hchars⟩
  have hblank : ∀ c ∈ '<' :: (inner.toList ++ ['>']), isBlank c = false := by
    refine List.forall_mem_cons.mpr ⟨by decide, List.forall_mem_append.mpr ⟨hwithin, ?_⟩⟩
    exact List.forall_mem_singleton.mpr (by decide)
  -- One exclamation mark is dropped, and the name of the tag does not begin with another one.
  have hstripped : (dropStart? ['!'] inner.toList).getD inner.toList = s.toList := by
    rcases hinner with heq | heq
    · obtain ⟨c, cs, hs, hc⟩ := hletter
      have hmark : c ≠ '!' := (held_of_isLetter hc).ne rfl (by decide)
      simp [heq, hs, dropStart?, hmark.symm]
    · simp [heq, dropStart?]
  apply readYaml_of_spelling hletter h (w := '<' :: (inner.toList ++ ['>']))
  · simp [taggedLine]
  · exact hblank
  · rw [normalize_verbatim hscheme, hstripped, flatMap_writtenChar h]

end Spellings

/-- **Spellings**: a parameter list is the tag of the text, whether it is written as it is, with escapes, between
angle brackets with a mark of its own, or between angle brackets alone where it does not look like a URI of tags. -/
theorem readYaml_spellings {s : String} (hletter : LetterFirst s.toList) (h : ∀ c ∈ s.toList, isListChar c = true) :
    SourceTree.readYaml ("k: !" ++ s ++ " v") = .ok (.entry ⟨"v", some s⟩) ∧
    SourceTree.readYaml ("k: !" ++ percentEscaped s ++ " v") = .ok (.entry ⟨"v", some s⟩) ∧
    SourceTree.readYaml ("k: !<!" ++ s ++ "> v") = .ok (.entry ⟨"v", some s⟩) ∧
    (dropStart? "tag:".toList s.toList = none →
      SourceTree.readYaml ("k: !<" ++ s ++ "> v") = .ok (.entry ⟨"v", some s⟩)) := by
  refine ⟨readYaml_mark hletter h, readYaml_escaped hletter h, ?_, fun hscheme => ?_⟩
  · have hbrackets : SourceTree.readYaml ("k: !<" ++ ("!" ++ s) ++ "> v") = .ok (.entry ⟨"v", some s⟩) := by
      apply readYaml_brackets hletter h
      · simp [dropStart?]
      · exact .inr (by simp)
    rwa [← String.append_assoc] at hbrackets
  · exact readYaml_brackets hletter h hscheme (.inl rfl)

theorem readYaml_spellings_names :
    SourceTree.readYaml ("k: !" ++ "names:List<text>,count:integer" ++ " v")
      = .ok (.entry ⟨"v", some "names:List<text>,count:integer"⟩) ∧
    SourceTree.readYaml ("k: !<" ++ "names:List<text>,count:integer" ++ "> v")
      = .ok (.entry ⟨"v", some "names:List<text>,count:integer"⟩) := by
  have hletter : LetterFirst "names:List<text>,count:integer".toList := ⟨'n', _, rfl, rfl⟩
  have hspellings := readYaml_spellings hletter (List.all_eq_true.mp (by decide))
  exact ⟨hspellings.1, hspellings.2.2.2 (by decide)⟩

/-- What looks like a URI of tags is no parameter list of the text, though it could be read as one. -/
theorem readYaml_uri :
    LetterFirst "tag:text".toList ∧ (∀ c ∈ "tag:text".toList, isListChar c = true) ∧
    ParameterList.parse "tag:text" = .ok [⟨"tag", .builtin .text false⟩] ∧
    SourceTree.readYaml ("k: !<" ++ "tag:text" ++ "> v") = .ok (.entry ⟨"v", none⟩) ∧
    SourceTree.readYaml ("k: !<" ++ "tag:text" ++ "> v") ≠ .ok (.entry ⟨"v", some "tag:text"⟩) := by
  have hread : SourceTree.readYaml ("k: !<" ++ "tag:text" ++ "> v") = .ok (.entry ⟨"v", none⟩) := by
    -- The rewriting leaves the tag alone, and for the reader it is no tag of the application's own.
    have hkept : normalizeTags ("k: !<" ++ "tag:text" ++ "> v").toList = "k: !<tag:text> v".toList := by decide +kernel
    have htokens : Yaml.tokens? "k: !<tag:text> v".toList
        = some (keyTokens.reverse ++ [.tag [] ("tag:text".toList.map some), .scalar ['v'] true, .blockEnd, .streamEnd]) := by
      decide +kernel
    rw [SourceTree.readYaml_eq_readDocument (by decide +kernel), hkept]
    exact SourceTree.readDocument_entry ⟨none, some ("tag:text".toList.map some)⟩ ['v'] true
      (by rw [htokens]; rfl) rfl rfl
  refine ⟨⟨'t', _, rfl, rfl⟩, List.all_eq_true.mp (by decide), by decide +kernel, hread, ?_⟩
  rw [hread]
  simp [SourceTree.entry]

end SourceTag

end Phrasebook
