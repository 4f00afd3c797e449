import Phrasebook.Emission.Module
import Phrasebook.Proofs.Emission.Accessor
import Phrasebook.Proofs.Template.Decomposition
import Mathlib.Data.List.Infix

/-!
# Raw literals in a source file

What a raw literal of the generated module stands for when the module is read as a source file.

- Of a carriage return and a line feed, a source file is read as the line feed alone.
- A raw literal has at most 255 hash signs around it and holds no carriage return. It ends at the first quote with as
  many hash signs behind it, and everything in front of that quote is taken as it is.

## Layers

- `sourceChars`, `rawText?`: a source file, and the raw literal that stands somewhere in it, as they are read.
- `fenceLength_le_iff`: what the number of hash signs of a literal says of its text.
- `rawText?_rawLiteralChars`: what the literal of a text is read as.
- `TextExpression.literal`: the text of the literal in the code of an expression.
- `GeneratedModule.literals_read`: where these literals stand in a generated module, and how they are read.
-/

namespace Phrasebook

open Phrasebook.Name Phrasebook.Text

/-! ## §1 Reading -/

/-- A source file as it is read: a carriage return in front of a line feed is left out. -/
def sourceChars : List Char → List Char
  | [] => []
  | c :: cs => if c = '\r' ∧ cs.head? = some '\n' then sourceChars cs else c :: sourceChars cs

/-- The text of a raw literal behind its first quote, and what stands behind the literal. -/
def rawContent? (fence : Nat) : List Char → Option (List Char × List Char)
  | [] => none
  | c :: cs =>
    if c = '"' && (List.replicate fence '#').isPrefixOf cs then some ([], cs.drop fence)
    else if c = '\r' then none
    else (rawContent? fence cs).map fun r => (c :: r.1, r.2)

/-- The greatest number of hash signs that a raw literal may have. -/
def maxFence : Nat := 255

/-- The text of the raw literal that stands here, and what stands behind it. -/
def rawText? : List Char → Option (List Char × List Char)
  | 'r' :: cs => match cs.dropWhile (· == '#') with
    | '"' :: behind =>
      let fence := (cs.takeWhile (· == '#')).length
      if fence ≤ maxFence then rawContent? fence behind else none
    | _ => none
  | _ => none

/-! ## §2 Source files -/

theorem sourceChars_cons {c : Char} (h : c ≠ '\r') (cs : List Char) : sourceChars (c :: cs) = c :: sourceChars cs := by
  rw [sourceChars, if_neg fun hc => h hc.1]

/-- Text without a carriage return is read as it is. -/
theorem sourceChars_append_of_not_mem {s : List Char} (h : '\r' ∉ s) (rest : List Char) :
    sourceChars (s ++ rest) = s ++ sourceChars rest := by
  induction s with
  | nil => rfl
  | cons c s ih =>
    rw [List.mem_cons, not_or] at h
    rw [List.cons_append, sourceChars_cons (Ne.symm h.1), ih h.2, List.cons_append]

theorem sourceChars_of_not_mem {s : List Char} (h : '\r' ∉ s) : sourceChars s = s := by
  have halone := sourceChars_append_of_not_mem h []
  rwa [List.append_nil, sourceChars, List.append_nil] at halone

/-- What stands in front of text that does not begin with a line feed is read on its own. -/
theorem sourceChars_append (s : List Char) {rest : List Char} (h : rest.head? ≠ some '\n') :
    sourceChars (s ++ rest) = sourceChars s ++ sourceChars rest := by
  induction s with
  | nil => rfl
  | cons c s ih =>
    have hnext : (s ++ rest).head? = some '\n' ↔ s.head? = some '\n' := by
      cases s with
      | nil => exact iff_of_false h (by simp)
      | cons d s => rfl
    rw [List.cons_append, sourceChars, sourceChars]
    simp only [hnext, ih]
    split <;> rfl

/-- The hash signs at the beginning of a text are not touched. -/
theorem takeWhile_sourceChars (s : List Char) :
    (sourceChars s).takeWhile (· == '#') = s.takeWhile (· == '#') := by
  induction s with
  | nil => rfl
  | cons c s ih =>
    rw [sourceChars]
    split
    · -- The line feed behind the carriage return ends the hash signs as well.
      rename_i hpair
      obtain ⟨rfl, hnext⟩ := hpair
      obtain ⟨rest, rfl⟩ := List.head?_eq_some_iff.mp hnext
      rw [sourceChars_cons (by decide), List.takeWhile_cons_of_neg (by decide), List.takeWhile_cons_of_neg (by decide)]
    · rw [List.takeWhile_cons, List.takeWhile_cons, ih]

theorem fenceLength_sourceChars (s : List Char) : fenceLength (sourceChars s) = fenceLength s := by
  induction s with
  | nil => rfl
  | cons c s ih =>
    rw [sourceChars]
    split
    · rename_i hpair
      obtain ⟨rfl, -⟩ := hpair
      rw [ih, fenceLength, if_neg (by decide), Nat.zero_max]
    · rw [fenceLength, fenceLength, takeWhile_sourceChars, ih]

/-- The literal of a text is read as the literal of the text that is read. -/
theorem sourceChars_rawLiteralChars (s behind : List Char) :
    sourceChars (rawLiteralChars s ++ behind) = rawLiteralChars (sourceChars s) ++ sourceChars behind := by
  have hfence : '\r' ∉ List.replicate (fenceLength s) '#' := fun hmem => by
    cases List.eq_of_mem_replicate hmem
  have hclose : '\r' ∉ '"' :: List.replicate (fenceLength s) '#' := by
    rw [List.mem_cons, not_or]
    exact ⟨by decide, hfence⟩
  have hopen : '\r' ∉ 'r' :: (List.replicate (fenceLength s) '#' ++ ['"']) := by
    rw [List.mem_cons, List.mem_append, not_or, not_or]
    exact ⟨by decide, hfence, by decide⟩
  -- Neither end of the text touches a line feed: a quote stands behind it.
  have hparts : rawLiteralChars s ++ behind = ('r' :: (List.replicate (fenceLength s) '#' ++ ['"'])) ++
      (s ++ (('"' :: List.replicate (fenceLength s) '#') ++ behind)) := by
    simp [rawLiteralChars]
  rw [hparts, sourceChars_append_of_not_mem hopen, sourceChars_append s (by simp),
    sourceChars_append_of_not_mem hclose]
  simp [rawLiteralChars, fenceLength_sourceChars]

/-! ## §3 Fences -/

theorem replicate_prefix_iff {n : Nat} {s : List Char} :
    List.replicate n '#' <+: s ↔ n ≤ (s.takeWhile (· == '#')).length := by
  induction n generalizing s with
  | zero => simp
  | succ n ih =>
    cases s with
    | nil => simp [List.replicate_succ]
    | cons c s =>
      by_cases hc : c = '#'
      · subst hc
        simp [List.replicate_succ, ih]
      · simp [List.replicate_succ, hc, Ne.symm hc]

/-- The fence is the shortest one that no quote of the text has behind it. -/
theorem fenceLength_le_iff {s : List Char} {n : Nat} :
    fenceLength s ≤ n ↔ ¬ ('"' :: List.replicate n '#') <:+: s := by
  induction s with
  | nil => simp [fenceLength]
  | cons c s ih =>
    rw [fenceLength, Nat.max_le, ih, List.infix_cons_iff, not_or, List.cons_prefix_cons, replicate_prefix_iff]
    refine and_congr_left fun _ => ?_
    by_cases hc : c = '"'
    · subst hc
      simp only [↓reduceIte, true_and, Nat.not_le]
      exact Nat.succ_le_iff
    · simp [hc, Ne.symm hc]

/-! ## §4 Literals -/

/-- A raw literal is read to its end, unless a carriage return comes before. -/
theorem rawContent?_append {n : Nat} {s : List Char} (h : fenceLength s ≤ n) (rest : List Char) :
    rawContent? n (s ++ '"' :: (List.replicate n '#' ++ rest)) = if '\r' ∈ s then none else some (s, rest) := by
  induction s with
  | nil =>
    have hfence : (List.replicate n '#').isPrefixOf (List.replicate n '#' ++ rest) = true := by
      rw [List.isPrefixOf_iff_prefix]
      exact List.prefix_append _ _
    have hdrop : (List.replicate n '#' ++ rest).drop n = rest := List.drop_left' List.length_replicate
    simp only [List.nil_append, rawContent?, hfence, hdrop, decide_true, Bool.and_self, ↓reduceIte, List.not_mem_nil]
  | cons c s ih =>
    have htail : fenceLength s ≤ n := by
      simp only [fenceLength] at h
      omega
    -- No quote of the text ends the literal.
    have hstep :
        (c = '"' && (List.replicate n '#').isPrefixOf (s ++ '"' :: (List.replicate n '#' ++ rest))) = false := by
      by_cases hc : c = '"'
      · subst hc
        rw [not_isPrefixOf_of_fenceLength_le h, Bool.and_false]
      · simp [hc]
    rw [List.cons_append, rawContent?, hstep, if_neg (by decide), ih htail]
    by_cases hreturn : c = '\r'
    · simp [hreturn]
    · by_cases hmem : '\r' ∈ s
      · simp [hreturn, hmem]
      · simp [hreturn, hmem, Ne.symm hreturn]

/-- The literal of a text is read as the text, unless it holds a carriage return or its fence is too long. -/
theorem rawText?_rawLiteralChars (s rest : List Char) :
    rawText? (rawLiteralChars s ++ rest)
      = if '\r' ∈ s ∨ maxFence < fenceLength s then none else some (s, rest) := by
  have hall : ∀ c ∈ List.replicate (fenceLength s) '#', (c == '#') = true := fun c hc => by
    simp [List.eq_of_mem_replicate hc]
  have hdrop : ∀ t, (List.replicate (fenceLength s) '#' ++ '"' :: t).dropWhile (· == '#') = '"' :: t := fun t => by
    rw [List.dropWhile_append_of_pos hall, List.dropWhile_cons_of_neg (by decide)]
  have htake : ∀ t, ((List.replicate (fenceLength s) '#' ++ '"' :: t).takeWhile (· == '#')).length = fenceLength s :=
    fun t => by
      rw [List.takeWhile_append_of_pos hall, List.takeWhile_cons_of_neg (by decide), List.append_nil,
        List.length_replicate]
  have hparts : rawLiteralChars s ++ rest = 'r' :: (List.replicate (fenceLength s) '#' ++
      '"' :: (s ++ '"' :: (List.replicate (fenceLength s) '#' ++ rest))) := by
    simp [rawLiteralChars]
  rw [hparts, rawText?]
  simp only [hdrop, htake, rawContent?_append (Nat.le_refl (fenceLength s))]
  -- Only the length of the fence and a carriage return can spoil the literal.
  by_cases hfence : fenceLength s ≤ maxFence
  · simp [hfence, Nat.not_lt.mpr hfence]
  · simp [hfence, Nat.not_le.mp hfence]

/-- A quote with as many hash signs behind it as a literal may have. -/
def longestFence : List Char := '"' :: List.replicate maxFence '#'

/-- How the raw literal of a text is read where it stands in a source file. -/
structure LiteralRead (text before behind : List Char) : Prop where
  /-- What stands in front of it is read on its own. -/
  apart : sourceChars (before ++ (rawLiteralChars text ++ behind))
    = sourceChars before ++ sourceChars (rawLiteralChars text ++ behind)
  /-- It is a literal exactly when each carriage return of the text goes with a line feed and no quote has too many hash
  signs behind it; and then it is the text that is read. -/
  read_iff : ∀ r, rawText? (sourceChars (rawLiteralChars text ++ behind)) = some r ↔
    ('\r' ∉ sourceChars text ∧ ¬ longestFence <:+: text) ∧ r = (sourceChars text, sourceChars behind)
  /-- It is the text itself exactly when this has no carriage return and no such quote. -/
  exact_iff : rawText? (sourceChars (rawLiteralChars text ++ behind)) = some (text, sourceChars behind) ↔
    '\r' ∉ text ∧ ¬ longestFence <:+: text

theorem literalRead (text before behind : List Char) : LiteralRead text before behind := by
  have hread : ∀ r, rawText? (sourceChars (rawLiteralChars text ++ behind)) = some r ↔
      ('\r' ∉ sourceChars text ∧ ¬ longestFence <:+: text) ∧ r = (sourceChars text, sourceChars behind) := by
    intro r
    -- The fence is that of the text as it is written, since no hash sign is left out.
    rw [sourceChars_rawLiteralChars, rawText?_rawLiteralChars, fenceLength_sourceChars, longestFence,
      ← fenceLength_le_iff]
    by_cases hlegal : '\r' ∉ sourceChars text ∧ fenceLength text ≤ maxFence
    · rw [if_neg (by rw [not_or]; exact ⟨hlegal.1, Nat.not_lt.mpr hlegal.2⟩)]
      simp [hlegal, eq_comm]
    · rw [if_pos (by rw [← Nat.not_le]; tauto)]
      simp [hlegal]
  refine ⟨sourceChars_append before (by simp [rawLiteralChars]), hread, ?_⟩
  rw [hread]
  refine ⟨fun h => ?_, fun h => ?_⟩
  · obtain ⟨⟨hreturn, hfence⟩, heq⟩ := h
    exact ⟨(Prod.mk.inj heq).1 ▸ hreturn, hfence⟩
  · rw [sourceChars_of_not_mem h.1]
    exact ⟨h, rfl⟩

/-! ## §5 Generated modules -/

/-- The code of a line stands in the code of all lines. -/
theorem code_infix_writtenAll {l : CodeLine} {ls : List CodeLine} (h : l ∈ ls) :
    l.code.toList <:+: (CodeLine.writtenAll ls).toList := by
  have hline : l.code.toList <:+: l.written.toList := by
    unfold CodeLine.written
    by_cases hempty : l.code.isEmpty = true
    · rw [if_pos hempty, String.isEmpty_iff.mp hempty]
      exact List.nil_infix
    · rw [if_neg hempty, String.toList_append, String.toList_append]
      exact List.infix_append _ _ _
  obtain ⟨before, behind, rfl⟩ := List.append_of_mem h
  refine hline.trans ⟨(CodeLine.writtenAll before).toList, (CodeLine.writtenAll behind).toList, ?_⟩
  simp [CodeLine.writtenAll, String.toList_join]

namespace TextExpression

/-- The text of the raw literal in the code of an expression. -/
def literal (e : TextExpression) : String := if e.arguments.isEmpty then e.fixedText else e.pattern

theorem literal_ofKey (key : String) : (ofKey key).literal = key := String.empty_append

/-- The literal of a template that shows no values is the text of the template. -/
theorem literal_ofTemplate {schema : ParameterList} {properties : KeyMap ParamType} {t : Template}
    (h : (ofTemplate schema properties t).arguments = []) : (ofTemplate schema properties t).literal = t.raw := by
  have hparts : ∀ s ∈ t.segments, partText (fun _ => "") (partOf schema properties s) = s.written := by
    intro s hs
    cases s with
    | literal text => exact (written_literal text).symm
    | placeholder name =>
      -- A placeholder is no argument here, so it is written back.
      have hnone : ∀ argument, partOf schema properties (.placeholder name) ≠ .argument argument := by
        intro argument hpart
        have hmem : argument ∈ (ofTemplate schema properties t).arguments :=
          List.mem_filterMap.mpr ⟨_, List.mem_map_of_mem hs, by rw [hpart]⟩
        rw [h] at hmem
        cases hmem
      rcases partOf_cases schema properties name with ⟨p, i, -, -, -, hpart⟩ | ⟨type, -, -, hpart⟩ | ⟨-, -, hpart⟩
      · exact absurd hpart (hnone _)
      · exact absurd hpart (hnone _)
      · rw [hpart]
        rfl
  rw [literal, h, List.isEmpty_nil, if_pos rfl, fixedText_eq (fun _ => "") h, textOf, ofTemplate, List.map_map]
  exact (congrArg String.join (List.map_congr_left hparts)).trans (decomposes_segments t.raw).written

/-- The code of an expression holds its literal. -/
theorem literal_infix_code (e : TextExpression) : (rawLiteral e.literal).toList <:+: e.code.toList := by
  -- The literal is the first argument of the call, whatever function is called.
  have hcall : ∀ (function first : String) (rest : List String),
      first.toList <:+: (callText function (first :: rest)).toList := by
    intro function first rest
    have hlist : first.toList <:+: (commaList (first :: rest)).toList := by
      rw [commaList, join, String.toList_ofList, List.map_cons]
      cases rest with
      | nil => simp
      | cons second rest =>
        rw [List.map_cons, List.intercalate_cons_cons]
        exact ⟨[], _, by rw [List.nil_append, List.append_assoc]⟩
    rw [callText, String.toList_append, String.toList_append]
    exact hlist.trans (List.infix_append _ _ _)
  unfold literal code
  split
  · exact hcall _ _ _
  · exact hcall _ _ _

end TextExpression

/-- The expressions that a function makes its texts with. -/
def AccessorFunction.expressions (f : AccessorFunction) : List TextExpression := f.arms.map (·.2) ++ [f.fallback]

theorem AccessorFunction.exists_line {f : AccessorFunction} {e : TextExpression} (h : e ∈ f.expressions) :
    ∃ l ∈ f.lines, e.code.toList <:+: l.code.toList := by
  -- An arm holds its expression behind the pattern, and the fallback is the last arm.
  have harm : ∀ pattern, e.code.toList <:+: (armCode pattern e.code).toList := by
    intro pattern
    rw [armCode, String.toList_append, String.toList_append]
    exact List.infix_append _ _ _
  have hbody : ∃ l ∈ f.body, e.code.toList <:+: l.code.toList := by
    unfold body
    split
    · rename_i hnone
      rw [expressions, List.isEmpty_iff.mp hnone] at h
      obtain rfl := List.mem_singleton.mp h
      exact ⟨_, List.mem_cons_self, List.infix_refl _⟩
    · rcases List.mem_append.mp h with hmem | hmem
      · obtain ⟨arm, harm', rfl⟩ := List.mem_map.mp hmem
        have hline : CodeLine.mk 3 (armCode (localePath arm.1) arm.2.code)
            ∈ f.arms.map fun arm => CodeLine.mk 3 (armCode (localePath arm.1) arm.2.code) :=
          List.mem_map_of_mem harm'
        exact ⟨_, List.mem_cons_of_mem _ (List.mem_append_left _ hline), harm _⟩
      · obtain rfl := List.mem_singleton.mp hmem
        exact ⟨_, List.mem_cons_of_mem _ (List.mem_append_right _ List.mem_cons_self), harm _⟩
  obtain ⟨l, hl, hinfix⟩ := hbody
  exact ⟨l, by simp [lines, hl], hinfix⟩

/-- The raw literal of a text stands in the code of a module. -/
def GeneratedModule.HasLiteral (m : GeneratedModule) (text : String) : Prop :=
  (rawLiteral text).toList <:+: m.text.toList

namespace GeneratedModule

theorem mem_lines_ofTables {s : Settings} {tables : List Table} {t : Table} (ht : t ∈ tables) {a : Accessor}
    (ha : a ∈ t.accessors.values) {l : CodeLine} (hl : l ∈ (AccessorFunction.ofAccessor s.properties a).lines) :
    l ∈ (ofTables s tables).linesAround supportLines := by
  have hcontract : l ∈ (ContractModule.ofTable s.properties t).lines := by
    simp only [ContractModule.lines, List.mem_append, List.mem_flatMap]
    exact .inl (.inl (.inl (.inr ⟨_, List.mem_map_of_mem ha, List.mem_cons_of_mem _ hl⟩)))
  simp only [linesAround, List.mem_append, List.mem_flatMap]
  exact .inr ⟨_, List.mem_map_of_mem ht, List.mem_cons_of_mem _ hcontract⟩

theorem hasLiteral_of_mem {s : Settings} {tables : List Table} {t : Table} (ht : t ∈ tables) {a : Accessor}
    (ha : a ∈ t.accessors.values) {e : TextExpression}
    (he : e ∈ (AccessorFunction.ofAccessor s.properties a).expressions) :
    (ofTables s tables).HasLiteral e.literal := by
  obtain ⟨l, hl, hinfix⟩ := AccessorFunction.exists_line he
  exact (e.literal_infix_code.trans hinfix).trans (code_infix_writtenAll (mem_lines_ofTables ht ha hl))

/-- A template has an expression in the function of its accessor. -/
theorem hasLiteral_ofTemplate {s : Settings} {tables : List Table} {t : Table} (ht : t ∈ tables) {a : Accessor}
    (ha : a ∈ t.accessors.values) {b : Branch} (hb : b ∈ a.branches ∨ a.fallback = some b) :
    (ofTables s tables).HasLiteral (TextExpression.ofTemplate a.schema s.properties b.template).literal := by
  refine hasLiteral_of_mem ht ha ?_
  rcases hb with hbranch | hfallback
  · refine List.mem_append_left _ (List.mem_map.mpr ⟨(ofLocale b.locale, _), ?_, rfl⟩)
    exact List.mem_map_of_mem hbranch
  · refine List.mem_append_right _ (List.mem_singleton.mpr ?_)
    rw [AccessorFunction.ofAccessor, hfallback]

/-- **Literals**: wherever it stands in a source file, the raw literal of a text is a literal of this very text exactly
when the text has no carriage return and no quote with 255 hash signs behind it. A generated module has the literals of
all templates, as they are or as the pattern of a format, and of all keys that stand in for a template. -/
theorem literals_read (s : Settings) (tables : List Table) :
    (∀ text before behind, LiteralRead text before behind) ∧
      ∀ t ∈ tables, ∀ a ∈ t.accessors.values,
        (∀ b, b ∈ a.branches ∨ a.fallback = some b →
          if (TextExpression.ofTemplate a.schema s.properties b.template).arguments = [] then
            (ofTables s tables).HasLiteral b.template.raw
          else (ofTables s tables).HasLiteral (TextExpression.ofTemplate a.schema s.properties b.template).pattern) ∧
        (a.fallback = none → (ofTables s tables).HasLiteral a.key) := by
  refine ⟨literalRead, fun t ht a ha => ⟨fun b hb => ?_, fun hnone => ?_⟩⟩
  · have hliteral := hasLiteral_ofTemplate (s := s) ht ha hb
    split
    · rename_i hplain
      rwa [TextExpression.literal_ofTemplate hplain] at hliteral
    · rename_i hshows
      rwa [TextExpression.literal, if_neg fun hempty => hshows (List.isEmpty_iff.mp hempty)] at hliteral
  · have hmem : TextExpression.ofKey a.key ∈ (AccessorFunction.ofAccessor s.properties a).expressions := by
      refine List.mem_append_right _ (List.mem_singleton.mpr ?_)
      rw [AccessorFunction.ofAccessor, hnone]
    -- Without a fallback, the last arm shows the key.
    have hliteral := hasLiteral_of_mem ht ha hmem
    rwa [TextExpression.literal_ofKey] at hliteral

end GeneratedModule

/-- Texts with a carriage return, in front of a line feed and alone. -/
def Compile.Greetings.returns : SourceLoader := fun _ _ =>
  .found "en_us/greetings.yaml" (.branch [
    ("farewell", .leaf ⟨"Bye\rAda", none⟩), ("greeting", .leaf ⟨"Hi\r\nAda", none⟩)])

/-- A carriage return is lost in front of a line feed, and no literal can have one that stands alone. Nor is there one
for a quote with as many hash signs behind it as a literal may have. -/
theorem GeneratedModule.literals_not_read :
    (∃ o, Compile.compile Compile.Greetings.settings [Compile.Greetings.visitor] Compile.Greetings.returns = .ok o ∧
      (ofTables Compile.Greetings.settings o.tables).HasLiteral "Hi\r\nAda" ∧
      (ofTables Compile.Greetings.settings o.tables).HasLiteral "Bye\rAda") ∧
    (∀ behind, rawText? (sourceChars (rawLiteralChars "Hi\r\nAda".toList ++ behind))
      = some ("Hi\nAda".toList, sourceChars behind)) ∧
    (∀ behind, rawText? (sourceChars (rawLiteralChars "Bye\rAda".toList ++ behind)) = none) ∧
    ∀ behind, rawText? (sourceChars (rawLiteralChars longestFence ++ behind)) = none := by
  have hnone : ∀ text, ¬('\r' ∉ sourceChars text ∧ ¬ longestFence <:+: text) → ∀ behind,
      rawText? (sourceChars (rawLiteralChars text ++ behind)) = none := by
    intro text h behind
    rw [Option.eq_none_iff_forall_ne_some]
    exact fun r hr => h (((literalRead text [] behind).read_iff r).mp hr).1
  have hplain : ¬ longestFence <:+: "Hi\r\nAda".toList := by
    rw [longestFence, ← fenceLength_le_iff]
    decide
  refine ⟨?_, fun behind => ((literalRead _ [] behind).read_iff _).mpr ⟨⟨by decide, hplain⟩, rfl⟩,
    hnone _ fun h => h.1 (by decide), hnone _ fun h => h.2 (List.infix_refl _)⟩
  -- The texts are those of the default locale, and none has a placeholder.
  obtain ⟨o, ho, t, ht, a, b, haccessors, first, second, hfirst, hsecond, hplain⟩ : ∃ o,
      Compile.compile Compile.Greetings.settings [Compile.Greetings.visitor] Compile.Greetings.returns = .ok o ∧
      ∃ t ∈ o.tables, ∃ a b, t.accessors.values = [a, b] ∧ ∃ first second,
        (a.fallback = some first ∧ first.template.raw = "Bye\rAda") ∧
        (b.fallback = some second ∧ second.template.raw = "Hi\r\nAda") ∧
        (TextExpression.ofTemplate a.schema Compile.Greetings.settings.properties first.template).arguments = [] ∧
        (TextExpression.ofTemplate b.schema Compile.Greetings.settings.properties second.template).arguments = [] :=
    ⟨_, rfl, _, List.mem_cons_self, _, _, rfl, _, _, ⟨rfl, rfl⟩, ⟨rfl, rfl⟩, rfl, rfl⟩
  have hbye := hasLiteral_ofTemplate (s := Compile.Greetings.settings) ht
    (haccessors ▸ List.mem_cons_self) (.inr hfirst.1)
  have hhi := hasLiteral_ofTemplate (s := Compile.Greetings.settings) ht
    (haccessors ▸ List.mem_cons_of_mem _ List.mem_cons_self) (.inr hsecond.1)
  rw [TextExpression.literal_ofTemplate hplain.1, hfirst.2] at hbye
  rw [TextExpression.literal_ofTemplate hplain.2, hsecond.2] at hhi
  exact ⟨o, ho, hhi, hbye⟩

end Phrasebook
