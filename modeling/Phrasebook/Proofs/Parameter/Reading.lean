import Phrasebook.Proofs.Name.Identifier
import Phrasebook.Proofs.Parameter.Splitting
import Phrasebook.Proofs.Text.Blank
import Phrasebook.Proofs.Traverse

/-!
# Reading types

The reader takes a text apart from the outside, with fuel for its length. Which texts it reads, and as which types, is
said here without the reader and its fuel.

## Layers

- `IsTypeName`, `SpellsKind`: names and words.
- `shape_of_isTypeName`, `shape_optional`, `shape_generic`: what one step sees of a text; `denotes_of_shape_leaf`,
  `of_shape_optional`, `of_shape_generic`: which text it has seen.
- `Denotes`: the texts of a type, one rule for each way to read one.
- `parseChars_eq_ok_iff`: a text is read as the type that it denotes, and as no other.
-/

namespace Phrasebook

open Phrasebook.Name Phrasebook.Text

/-! ## §1 Names and words -/

/-- A text that can stand for a type, or in front of the arguments of one. -/
structure IsTypeName (s : List Char) : Prop where
  ne_nil : s ≠ []
  trimmed : trim s = s
  /-- It has no bracket and no comma. -/
  plain : ∀ c ∈ s, isPlainChar c = true
  noMark : s.getLast? ≠ some '?'
  noStar : s ≠ ['*']

/-- A word of a kind, in any ASCII case. -/
def SpellsKind (kind : Builtin) (s : List Char) : Prop := ∃ w ∈ kind.words, s.map lowerAscii = w.toList

theorem isAlphanumeric_of_lowerAscii {c : Char} (h : isAlphanumeric (lowerAscii c) = true) :
    isAlphanumeric c = true := by
  unfold lowerAscii at h
  split at h
  · rename_i hcapital
    rw [isAlphanumeric, isLetter, hcapital, Bool.or_true, Bool.true_or]
  · exact h

theorem isBlank_of_isAlphanumeric {c : Char} (h : isAlphanumeric c = true) : isBlank c = false := by
  simp only [isAlphanumeric, isLetter, isDigit, isCapital, Bool.or_eq_true, Bool.and_eq_true, decide_eq_true_eq,
    Char.le_def, UInt32.le_iff_toNat_le] at h
  have hrange : 48 ≤ c.toNat ∧ c.toNat ≤ 122 := by
    rcases h with (⟨hlow, hhigh⟩ | ⟨hlow, hhigh⟩) | ⟨hlow, hhigh⟩
    · exact ⟨Nat.le_trans (by decide) hlow, hhigh⟩
    · exact ⟨Nat.le_trans (by decide) hlow, Nat.le_trans hhigh (by decide)⟩
    · exact ⟨hlow, Nat.le_trans hhigh (by decide)⟩
  simp only [isBlank, Bool.or_eq_false_iff, Bool.and_eq_false_iff, decide_eq_false_iff_not, beq_eq_false_iff_ne]
  omega

/-- The characters of a class without brackets and commas are plain. -/
theorem isPlainChar_of_class {p : Char → Bool} (hp : ['<', '[', '>', ']', ','].any p = false) {c : Char}
    (hc : p c = true) : isPlainChar c = true := by
  have hne : ∀ d ∈ ['<', '[', '>', ']', ','], c ≠ d := by
    rintro d hd rfl
    exact List.any_eq_false.mp hp c hd hc
  simp only [List.forall_mem_cons] at hne
  simp [isPlainChar, isOpening, isClosing, hne]

theorem isPlainChar_of_isAlphanumeric {c : Char} (h : isAlphanumeric c = true) : isPlainChar c = true :=
  isPlainChar_of_class rfl h

theorem isPlainChar_of_isBlank {c : Char} (h : isBlank c = true) : isPlainChar c = true :=
  isPlainChar_of_class rfl h

theorem plain_of_blanks {s : List Char} (h : Blanks s) : ∀ c ∈ s, isPlainChar c = true :=
  fun c hc => isPlainChar_of_isBlank (h c hc)

/-- Blanks have nothing to cut at. -/
theorem uncut_of_blanks {s : List Char} (h : Blanks s) : Uncut s := uncut_of_plain (plain_of_blanks h)

/-- Blanks at the ends open and close no bracket. -/
theorem depthBehind_trim (s : List Char) (depth : Nat) : depthBehind depth (trim s) = depthBehind depth s := by
  obtain ⟨before, behind, hbefore, hbehind, hs⟩ := exists_blanks s
  have hblanks : ∀ {s : List Char}, Blanks s → ∀ depth, depthBehind depth s = some depth :=
    fun h => depthBehind_plain (plain_of_blanks h)
  conv_rhs => rw [hs, depthBehind_append, depthBehind_append, hblanks hbefore, Option.bind_some]
  cases depthBehind depth (trim s) with
  | none => rfl
  | some d => exact (hblanks hbehind d).symm

theorem isAlphanumeric_of_spellsKind {kind : Builtin} {s : List Char} (h : SpellsKind kind s) :
    ∀ c ∈ s, isAlphanumeric c = true := by
  obtain ⟨w, hw, hs⟩ := h
  -- Every word of every kind is looked at.
  have hwords : ∀ w ∈ kind.words, w.toList.all isAlphanumeric = true := by cases kind <;> decide
  intro c hc
  have hlower : lowerAscii c ∈ w.toList := hs ▸ List.mem_map_of_mem hc
  exact isAlphanumeric_of_lowerAscii (List.all_eq_true.mp (hwords w hw) _ hlower)

theorem isTypeName_of_spellsKind {kind : Builtin} {s : List Char} (h : SpellsKind kind s) : IsTypeName s := by
  have hall := isAlphanumeric_of_spellsKind h
  -- A word has letters and digits only, hence no mark, no star and no blank.
  have hmark : ∀ d, isAlphanumeric d = false → d ∉ s := by
    intro d hd hmem
    rw [hall d hmem] at hd
    cases hd
  have hwords : ∀ w ∈ kind.words, w.toList ≠ [] := by cases kind <;> decide
  obtain ⟨w, hw, hs⟩ := h
  refine ⟨?_, ?_, fun c hc => isPlainChar_of_isAlphanumeric (hall c hc), ?_, ?_⟩
  · rintro rfl
    exact hwords w hw hs.symm
  · rw [trim_eq_self_iff]
    exact ⟨fun c hc => isBlank_of_isAlphanumeric (hall c (List.mem_of_head? hc)),
      fun c hc => isBlank_of_isAlphanumeric (hall c (List.mem_of_getLast? hc))⟩
  · exact fun hlast => hmark '?' rfl (List.mem_of_getLast? hlast)
  · rintro rfl
    exact hmark '*' rfl List.mem_cons_self

/-- The words of the kinds are all different, so a word is found for its own kind. -/
theorem ofWord?_of_spellsKind {kind : Builtin} {s : List Char} (h : SpellsKind kind s) :
    Builtin.ofWord? s = some kind := by
  obtain ⟨w, hw, hs⟩ := h
  have hwords : ∀ w ∈ kind.words, (Builtin.all.find? fun k => k.words.contains w) = some kind := by
    cases kind <;> decide
  rw [Builtin.ofWord?, hs, String.ofList_toList]
  exact hwords w hw

theorem ofWord?_eq_none {s : List Char} (h : ∀ kind, ¬ SpellsKind kind s) : Builtin.ofWord? s = none := by
  rw [Builtin.ofWord?, List.find?_eq_none]
  intro kind _ hcontains
  refine h kind ⟨String.ofList (s.map lowerAscii), by simpa using hcontains, ?_⟩
  rw [String.toList_ofList]

theorem spellsKind_of_ofWord? {kind : Builtin} {s : List Char} (h : Builtin.ofWord? s = some kind) :
    SpellsKind kind s := by
  have hcontains := List.find?_some h
  refine ⟨String.ofList (s.map lowerAscii), by simpa using hcontains, ?_⟩
  rw [String.toList_ofList]

/-! ## §2 Shapes -/

namespace ParamType

/-- A name is a word of a kind or else the name of a type. -/
theorem shape_of_isTypeName {s : List Char} (h : IsTypeName s) :
    shape s = match Builtin.ofWord? s with
      | some kind => .leaf (.builtin kind false)
      | none => .leaf (.named (String.ofList s) [] false) := by
  -- A plain text passes every test for a bracket, a comma, a mark or a star.
  have hopening : s.dropWhile (fun c => !isOpening c) = [] := by
    apply List.dropWhile_eq_nil_iff.mpr
    intro c hc
    have hplain := h.plain c hc
    simp only [isPlainChar, Bool.and_eq_true] at hplain
    exact hplain.1.1
  have hclosing : (s.any fun c => isClosing c || c = ',') = false := by
    apply List.any_eq_false.mpr
    intro c hc
    have hplain := h.plain c hc
    simp only [isPlainChar, Bool.and_eq_true, Bool.not_eq_eq_eq_not, Bool.not_true, decide_eq_true_eq] at hplain
    simp [hplain.1.2, hplain.2]
  cases hword : Builtin.ofWord? s <;>
    simp only [shape, List.isEmpty_iff, h.ne_nil, ↓reduceIte, dropEnd?_eq_none_iff.mpr h.noMark, h.noStar, hopening, hclosing,
      Bool.false_eq_true, hword]

theorem shape_optional (s : List Char) : shape (s ++ ['?']) = .optional s := by
  rw [shape, dropEnd?_append, if_neg]
  simp

/-- A text that is not blank, in front of the first opening bracket, is a name with arguments. -/
theorem shape_generic {before inner : List Char} {opening closing : Char} {parts : List (List Char)}
    (hbase : trim before ≠ []) (hbefore : ∀ c ∈ before, isOpening c = false) (hbrackets : Brackets opening closing)
    (hsplit : splitTopLevel inner = some parts) (hparts : ∃ p ∈ parts, p ≠ []) :
    shape (before ++ opening :: (inner ++ [closing])) = .generic (trim before) parts := by
  have hskip : ∀ c ∈ before, (!isOpening c) = true := fun c hc => by rw [hbefore c hc]; rfl
  have hdrop : (before ++ opening :: (inner ++ [closing])).dropWhile (fun c => !isOpening c)
      = opening :: (inner ++ [closing]) := by
    rw [List.dropWhile_append_of_pos hskip, List.dropWhile_cons_of_neg]
    simp [hbrackets.isOpening]
  have htake : (before ++ opening :: (inner ++ [closing])).takeWhile (fun c => !isOpening c) = before := by
    rw [List.takeWhile_append_of_pos hskip, List.takeWhile_cons_of_neg, List.append_nil]
    simp [hbrackets.isOpening]
  have hlast : (before ++ opening :: (inner ++ [closing])).getLast? = some closing := by
    rw [← List.cons_append, ← List.append_assoc, List.getLast?_concat]
  have hmark : (before ++ opening :: (inner ++ [closing])).getLast? ≠ some '?' := by
    rw [hlast]
    cases hbrackets <;> decide
  have hstar : before ++ opening :: (inner ++ [closing]) ≠ ['*'] := by
    intro heq
    rw [heq] at hlast
    cases hbrackets <;> cases hlast
  have hclosing : closingOf opening = closing := by cases hbrackets <;> rfl
  have hall : parts.all List.isEmpty = false := by
    obtain ⟨p, hp, hne⟩ := hparts
    apply List.all_eq_false.mpr
    exact ⟨p, hp, by simpa using hne⟩
  -- The text is not empty, has no question mark at its end and is no star, so it is read up to its first bracket.
  rw [shape, if_neg (by simp), dropEnd?_eq_none_iff.mpr hmark]
  simp only [hstar, ↓reduceIte, hdrop, htake, shapeOfGeneric, List.getLast?_concat, hclosing, ne_eq, not_true_eq_false,
    List.isEmpty_iff, hbase, List.dropLast_concat, hsplit, hall, Bool.false_eq_true]

end ParamType

/-! ## §3 The texts of a type -/

/-- The texts that stand for a type. -/
inductive Denotes : List Char → ParamType → Prop where
  | word {kind : Builtin} {s : List Char} (hword : SpellsKind kind s) : Denotes s (.builtin kind false)
  | star : Denotes ['*'] (.builtin .any false)
  /-- A name that is no word of a kind. -/
  | name {s : List Char} (hname : IsTypeName s) (hword : ∀ kind, ¬ SpellsKind kind s) :
      Denotes s (.named (String.ofList s) [] false)
  /-- Arguments between brackets, behind any text that is not blank and has no opening bracket. -/
  | generic {before : List Char} {opening closing : Char} {arguments : List (List Char × ParamType)}
      (hbase : trim before ≠ []) (hbefore : ∀ c ∈ before, isOpening c = false) (hbrackets : Brackets opening closing)
      (hne : arguments ≠ []) (huncut : ∀ a ∈ arguments, Uncut a.1) (harguments : ∀ a ∈ arguments, Denotes a.1 a.2) :
      Denotes (before ++ opening :: ([','].intercalate (arguments.map (·.1)) ++ [closing]))
        (.named (String.ofList (trim before)) (arguments.map (·.2)) false)
  | optional {s : List Char} {t : ParamType} (h : Denotes s t) : Denotes (s ++ ['?']) t.orNull
  | blanks {before s behind : List Char} {t : ParamType} (hbefore : Blanks before) (hbehind : Blanks behind)
      (h : Denotes s t) : Denotes (before ++ s ++ behind) t

theorem denotes_of_trim {s : List Char} {t : ParamType} (h : Denotes (trim s) t) : Denotes s t := by
  obtain ⟨before, behind, hbefore, hbehind, hs⟩ := exists_blanks s
  rw [hs]
  exact .blanks hbefore hbehind h

/-- Between its ends, a text with arguments is not blank. -/
theorem trim_generic {before : List Char} (hbase : trim before ≠ []) {opening closing : Char}
    (hbrackets : Brackets opening closing) (inner : List Char) :
    trim (before ++ opening :: (inner ++ [closing])) = trimStart before ++ opening :: (inner ++ [closing]) := by
  have hblank : isBlank closing = false := by cases hbrackets <;> rfl
  have hstart : trimStart before ≠ [] := fun hnil => hbase (by rw [trim, hnil]; rfl)
  rw [← List.cons_append, ← List.append_assoc, trim_concat hblank, trimStart_append hstart, List.append_assoc]

/-- What denotes a type is not blank. -/
theorem Denotes.trim_ne_nil {s : List Char} {t : ParamType} (h : Denotes s t) : trim s ≠ [] := by
  -- By induction on the rules: each one leaves a character that is not blank.
  induction h with
  | word hword =>
    have hname := isTypeName_of_spellsKind hword
    exact hname.trimmed.symm ▸ hname.ne_nil
  | star => decide
  | name hname _ => exact hname.trimmed.symm ▸ hname.ne_nil
  | generic hbase _ hbrackets _ _ _ _ =>
    rw [trim_generic hbase hbrackets]
    simp
  | optional _ _ =>
    rw [trim_concat (by decide)]
    simp
  | blanks hbefore hbehind _ ih => rwa [trim_blanks hbefore hbehind]

/-! ## §4 From texts to types -/

theorem length_le_intercalate (sep : List Char) {parts : List (List Char)} {p : List Char} (h : p ∈ parts) :
    p.length ≤ (sep.intercalate parts).length := by
  -- By induction on the parts: what is joined to the first one only adds to the length.
  induction parts with
  | nil => cases h
  | cons q parts ih =>
    cases parts with
    | nil =>
      obtain rfl := List.mem_singleton.mp h
      rw [List.intercalate_singleton]
    | cons r parts =>
      rw [List.intercalate_cons_cons, List.length_append, List.length_append]
      rcases List.mem_cons.mp h with rfl | hmem
      · omega
      · have := ih hmem
        omega

namespace ParamType

/-- A step of the reader looks at the trimmed text only. -/
theorem parseWithin_congr_trim {s s' : List Char} (h : trim s = trim s') (fuel : Nat) :
    parseWithin fuel s = parseWithin fuel s' := by
  cases fuel with
  | zero => rfl
  | succ fuel => rw [parseWithin, parseWithin, h]

end ParamType

open ParamType

/-- With fuel for its length, a text is read as the type that it denotes. -/
theorem Denotes.parseWithin_eq {s : List Char} {t : ParamType} (h : Denotes s t) {fuel : Nat}
    (hfuel : s.length ≤ fuel) : parseWithin (fuel + 1) s = .ok t := by
  -- The induction is on the rules, and each step of the reader undoes one of them; blanks cost no step.
  induction h generalizing fuel with
  | word hword =>
    have hname := isTypeName_of_spellsKind hword
    rw [parseWithin, hname.trimmed, shape_of_isTypeName hname, ofWord?_of_spellsKind hword]
  | star => rfl
  | name hname hword => rw [parseWithin, hname.trimmed, shape_of_isTypeName hname, ofWord?_eq_none hword]
  | @generic before opening closing arguments hbase hbefore hbrackets hne huncut harguments ih =>
    have hsplit : splitTopLevel ([','].intercalate (arguments.map (·.1))) = some ((arguments.map (·.1)).map trim) := by
      refine splitTopLevel_intercalate (List.map_eq_nil_iff.not.mpr hne) fun p hp => ?_
      obtain ⟨a, ha, rfl⟩ := List.mem_map.mp hp
      exact huncut a ha
    have hfilled : ∃ p ∈ (arguments.map (·.1)).map trim, p ≠ [] := by
      obtain ⟨a, rest, rfl⟩ := List.exists_cons_of_ne_nil hne
      exact ⟨trim a.1, List.mem_cons_self, (harguments a List.mem_cons_self).trim_ne_nil⟩
    have hstart : trim (trimStart before) ≠ [] := by rwa [trim_trimStart]
    have hopening : ∀ c ∈ trimStart before, isOpening c = false :=
      fun c hc => hbefore c ((List.dropWhile_suffix isBlank).subset hc)
    rw [parseWithin, trim_generic hbase hbrackets, shape_generic hstart hopening hbrackets hsplit hfilled,
      trim_trimStart]
    -- The arguments are read one by one, each being shorter than the whole.
    simp only [List.length_append, List.length_cons] at hfuel
    obtain ⟨fuel, rfl⟩ := Nat.exists_eq_succ_of_ne_zero (n := fuel) (by omega)
    have hread : traverse (parseWithin (fuel + 1)) ((arguments.map (·.1)).map trim) = .ok (arguments.map (·.2)) := by
      rw [List.map_map, traverse_eq_ok_iff, forall₂_map_same_iff]
      intro a ha
      have hlength := length_le_intercalate [','] (List.mem_map_of_mem (f := (·.1)) ha)
      show parseWithin (fuel + 1) (trim a.1) = .ok a.2
      rw [parseWithin_congr_trim (trim_trim a.1)]
      apply ih a ha
      omega
    simp only [hread]
    rfl
  | @optional s t h ih =>
    rw [List.length_append, List.length_singleton] at hfuel
    obtain ⟨fuel, rfl⟩ := Nat.exists_eq_succ_of_ne_zero (n := fuel) (by omega)
    have hread : parseWithin (fuel + 1) (trimStart s) = .ok t := by
      rw [parseWithin_congr_trim (trim_trimStart s)]
      apply ih
      omega
    rw [parseWithin, trim_concat (by decide), shape_optional]
    simp only [hread]
    rfl
  | blanks hbefore hbehind h ih =>
    rw [parseWithin_congr_trim (trim_blanks hbefore hbehind _)]
    apply ih
    simp only [List.length_append] at hfuel
    omega

/-! ## §5 From types to texts -/

namespace ParamType

/-- The texts of which a step sees a shape. -/
def Shape.Fits (s : List Char) : Shape → Prop
  | .malformed _ => True
  | .leaf t => Denotes s t
  | .optional inner => s = inner ++ ['?']
  | .generic base parts => ∃ before opening closing inner, s = before ++ opening :: (inner ++ [closing]) ∧
      base = trim before ∧ base ≠ [] ∧ (∀ c ∈ before, isOpening c = false) ∧ Brackets opening closing ∧
      splitTopLevel inner = some parts

theorem shapeOfGeneric_fits {before : List Char} (behind : List Char) {opening : Char} (hopening : isOpening opening = true)
    (hbefore : ∀ c ∈ before, isOpening c = false) :
    (shapeOfGeneric (before ++ opening :: behind) before opening behind).Fits (before ++ opening :: behind) := by
  have hbrackets : Brackets opening (closingOf opening) := by
    rcases Bool.or_eq_true _ _ ▸ hopening with h | h
    · rw [of_decide_eq_true h]
      exact .angle
    · rw [of_decide_eq_true h]
      exact .square
  unfold shapeOfGeneric
  split
  · trivial
  · rename_i hlast
    have hbehind : behind = behind.dropLast ++ [closingOf opening] :=
      (List.dropLast_append_getLast? _ (not_not.mp hlast)).symm
    split
    · trivial
    · rename_i hbase
      split
      · trivial
      · rename_i parts hsplit
        split
        · trivial
        · exact ⟨before, opening, closingOf opening, behind.dropLast, by rw [← hbehind], rfl, by simpa using hbase, hbefore,
            hbrackets, hsplit⟩

/-- A text that is not empty, has no mark at its end and neither brackets nor commas is a name. -/
theorem shape_fits {s : List Char} (htrim : trim s = s) : (shape s).Fits s := by
  unfold shape
  split
  · trivial
  · rename_i hempty
    split
    · rename_i inner hmark
      exact eq_append_of_dropEnd? hmark
    · rename_i hmark
      split
      · rename_i hstar
        rw [hstar]
        exact .star
      · rename_i hstar
        split
        · rename_i opening behind hdrop
          -- A bracket is met first: the text is cut there, and the part in front has no bracket.
          have hs : s = (s.takeWhile fun c => !isOpening c) ++ opening :: behind := by
            rw [← hdrop, List.takeWhile_append_dropWhile]
          have hopening : isOpening opening = true := by
            have hhead := List.head?_dropWhile_not (fun c => !isOpening c) s
            rw [hdrop] at hhead
            simpa using hhead
          have hbefore : ∀ c ∈ s.takeWhile (fun c => !isOpening c), isOpening c = false := by
            intro c hc
            simpa using List.mem_takeWhile_imp hc
          have hfits := shapeOfGeneric_fits behind hopening hbefore
          rwa [← hs] at hfits
        · rename_i hdrop
          split
          · trivial
          · rename_i hclosing
            -- Neither bracket nor comma is left, so the text is a word or else a name.
            have hplain : ∀ c ∈ s, isPlainChar c = true := by
              intro c hc
              have hopening := List.dropWhile_eq_nil_iff.mp hdrop c hc
              have hother : isClosing c = false ∧ c ≠ ',' := by
                simpa using List.any_eq_false.mp (Bool.eq_false_iff.mpr hclosing) c hc
              simp [isPlainChar, hopening, hother]
            have hname : IsTypeName s :=
              ⟨by simpa using hempty, htrim, hplain, dropEnd?_eq_none_iff.mp hmark, hstar⟩
            split
            · rename_i kind hword
              exact .word (spellsKind_of_ofWord? hword)
            · rename_i hnone
              refine .name hname fun kind hword => ?_
              rw [ofWord?_of_spellsKind hword] at hnone
              cases hnone

/-- A text that is read as a type denotes it. -/
theorem denotes_of_parseWithin {fuel : Nat} {s : List Char} {t : ParamType} (h : parseWithin fuel s = .ok t) :
    Denotes s t := by
  induction fuel generalizing s t with
  | zero => cases h
  | succ fuel ih =>
    apply denotes_of_trim
    have hfits := shape_fits (trim_trim s)
    rw [parseWithin] at h
    cases hshape : shape (trim s) with
    | malformed e =>
      rw [hshape] at h
      cases h
    | leaf t' =>
      rw [hshape] at h hfits
      obtain rfl := Except.ok.inj h
      exact hfits
    | optional inner =>
      rw [hshape] at h hfits
      obtain ⟨t', ht', rfl⟩ := map_eq_ok.mp h
      rw [show trim s = inner ++ ['?'] from hfits]
      exact (ih ht').optional
    | generic base parts =>
      rw [hshape] at h hfits
      obtain ⟨before, opening, closing, inner, hs, rfl, hbase, hbefore, hbrackets, hsplit⟩ := hfits
      obtain ⟨types, htypes, rfl⟩ := map_eq_ok.mp h
      obtain ⟨texts, hne, huncut, rfl, rfl⟩ := splitTopLevel_eq_some_iff.mp hsplit
      have hall := traverse_eq_ok_iff.mp htypes
      rw [List.forall₂_map_left_iff] at hall
      -- Each text between the commas denotes the type that its trimmed text is read as.
      obtain ⟨hlength, hzip⟩ := List.forall₂_iff_zip.mp hall
      have hfst : (texts.zip types).map (·.1) = texts := List.map_fst_zip hlength.le
      have hsnd : (texts.zip types).map (·.2) = types := List.map_snd_zip hlength.ge
      rw [hs]
      have hdenotes := @Denotes.generic _ _ _ (texts.zip types) hbase hbefore hbrackets ?_ ?_ ?_
      · rwa [hfst, hsnd] at hdenotes
      · intro hnil
        rw [hnil] at hfst
        exact hne hfst.symm
      · exact fun a ha => huncut a.1 (List.of_mem_zip ha).1
      · exact fun a ha => denotes_of_trim (ih (hzip ha))

/-- **Reading**: a text is read as the type that it denotes, and as no other. -/
theorem parseChars_eq_ok_iff {s : List Char} {t : ParamType} : parseChars s = .ok t ↔ Denotes s t :=
  ⟨denotes_of_parseWithin, fun h => h.parseWithin_eq Nat.le.refl⟩

theorem parse_eq_ok_iff {s : String} {t : ParamType} : parse s = .ok t ↔ Denotes s.toList t := parseChars_eq_ok_iff

end ParamType

/-- Blanks at the ends make no difference. -/
theorem denotes_congr_trim {s s' : List Char} (h : trim s = trim s') {t : ParamType} : Denotes s t ↔ Denotes s' t := by
  have hone : ∀ {s s' : List Char}, trim s = trim s' → Denotes s t → Denotes s' t := by
    intro s s' h hs
    have hread := hs.parseWithin_eq Nat.le.refl
    rw [parseWithin_congr_trim h] at hread
    exact denotes_of_parseWithin hread
  exact ⟨hone h, hone h.symm⟩

end Phrasebook
