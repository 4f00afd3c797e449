import Phrasebook.Proofs.Source.Document
import Phrasebook.Proofs.Source.Lines

/-!
# The rewriting of tags, line by line

Tags are rewritten in front of the reader of documents, one line after another. A line is cut in front of the value of
its key, and the key of a block scalar lets the rewriting pass over the text of the block.

## Layers

1. **Lines**: a text is the lines it is cut into.
2. **Values**: what stands in front of a value is kept, and its last character is a blank.
3. **One line**: what a value with a tag is rewritten to, and one without a tag.
4. **Block scalars**: the key of a block scalar opens it, whatever was read before.
-/

namespace Phrasebook.SourceTag

open Phrasebook.Text

/-! ## §1 Lines -/

/-- The lines of a text, in their parts. -/
def linesIn (text : String) : List Line := (linesOf text.toList).map .ofChars

theorem flatMap_chars_linesIn (text : String) : (linesIn text).flatMap Line.chars = text.toList := by
  rw [linesIn, List.flatMap_map]
  simp only [Line.chars_ofChars]
  rw [List.flatMap_id', flatten_linesOf]

/-! ## §2 Values -/

theorem quotedKey_append (quote : Char) (s : List Char) : (quotedKey quote s).1 ++ (quotedKey quote s).2 = s := by
  fun_induction quotedKey quote s with
  | case1 => rfl
  | case2 c cs hquote r ih => exact congrArg (fun t => '\\' :: c :: t) ih
  | case3 c cs => rfl
  | case4 c cs hquote hc r ih => exact congrArg (fun t => '\\' :: c :: t) ih
  | case5 c cs => rfl
  | case6 c cs hc hquote r ih => exact congrArg (c :: ·) ih

/-- A text is cut in front of a value: the part before it is kept and ends with a blank. -/
structure Cut (s before value : List Char) : Prop where
  append : before ++ value = s
  blank : value ≠ [] → ∃ front c, before = front ++ [c] ∧ isBlank c = true

theorem Cut.prepend {s before value : List Char} (h : Cut s before value) (front : List Char) :
    Cut (front ++ s) (front ++ before) value := by
  refine ⟨by rw [List.append_assoc, h.append], fun hne => ?_⟩
  obtain ⟨between, c, rfl, hc⟩ := h.blank hne
  exact ⟨front ++ between, c, by rw [List.append_assoc], hc⟩

/-- A space or a tab is a blank. -/
theorem isBlank_of_gap {c : Char} (h : (decide (c = ' ') || decide (c = '\t')) = true) : isBlank c = true := by
  rw [Bool.or_eq_true, decide_eq_true_eq, decide_eq_true_eq] at h
  rcases h with rfl | rfl <;> decide

theorem afterKey_cut {b : Bool} {s before value : List Char} (h : afterKey b s = some (before, value)) :
    Cut s before value := by
  fun_induction afterKey b s generalizing before value with
  | case1 => cases h
  | case2 =>
    cases h
    exact ⟨rfl, fun hne => absurd rfl hne⟩
  | case3 b c cs hblank =>
    cases h
    -- The blanks behind the colon are those that the key ends with.
    have hc := isBlank_of_gap hblank
    obtain ⟨front, d, hlast⟩ : ∃ front d, (c :: cs).takeWhile isBlank = front ++ [d] := by
      rcases List.eq_nil_or_concat ((c :: cs).takeWhile isBlank) with hnil | hconcat
      · rw [List.takeWhile_cons_of_pos hc] at hnil
        cases hnil
      · simpa using hconcat
    have hd : isBlank d = true := List.mem_takeWhile_imp (l := c :: cs) (by simp [hlast])
    refine ⟨congrArg (':' :: ·) List.takeWhile_append_dropWhile, fun _ => ⟨':' :: front, d, ?_, hd⟩⟩
    rw [hlast, List.cons_append]
  | case4 b c cs hblank ih =>
    obtain ⟨r, hr, hcut⟩ := Option.map_eq_some_iff.mp h
    cases hcut
    exact (ih hr).prepend [':']
  | case5 => cases h
  | case6 b c cs hcolon hcomment ih =>
    obtain ⟨r, hr, hcut⟩ := Option.map_eq_some_iff.mp h
    cases hcut
    exact (ih hr).prepend [c]

theorem valueOf?_cut {s before value : List Char} (h : valueOf? s = some (before, value)) : Cut s before value := by
  cases s with
  | nil => cases h
  | cons c cs =>
    rw [valueOf?] at h
    split at h
    · obtain ⟨r, hr, hcut⟩ := Option.map_eq_some_iff.mp h
      cases hcut
      have hquoted := (afterKey_cut hr).prepend (c :: (quotedKey c cs).1)
      rwa [List.cons_append, quotedKey_append] at hquoted
    · exact afterKey_cut h

/-! ## §3 One line -/

theorem rewriteValue_untagged (st : LineState) (parent indent : Nat) (before : List Char) {value : List Char}
    (h : ¬ ∃ cs, value = '!' :: cs) : (rewriteValue st parent indent before value).1 = before ++ value := by
  unfold rewriteValue
  split
  · rename_i cs
    exact absurd ⟨cs, rfl⟩ h
  · rfl

/-- The state behind a tag, by what follows on the line. -/
def LineState.behindTag (st : LineState) (parent : Nat) (next : List Char) : LineState :=
  let st := if isVoid next then { st with pending := some parent } else st
  if startsBlock next then { st with blockParent := some parent } else st

/-- A value with a tag, up to the next blank. -/
theorem rewriteValue_tag (st : LineState) (parent indent : Nat) (before : List Char) {w behind : List Char}
    (hvisible : ∀ c ∈ w, isBlank c = false) (hstop : ∀ c, behind.head? = some c → isBlank c = true) :
    rewriteValue st parent indent before ('!' :: (w ++ behind))
      = (before ++ (normalizeToken? ('!' :: w)).getD ('!' :: w) ++ behind, st.behindTag parent (trimStart behind)) := by
  obtain ⟨htoken, hbehind⟩ : ('!' :: (w ++ behind)).takeWhile (fun c => !isBlank c) = '!' :: w ∧
      ('!' :: (w ++ behind)).dropWhile (fun c => !isBlank c) = behind := by
    apply takeWhile_append_stop (s := '!' :: w)
    · exact List.forall_mem_cons.mpr ⟨rfl, fun c hc => by rw [hvisible c hc]; rfl⟩
    · exact fun c hc => by rw [hstop c hc]; rfl
  rw [rewriteValue, htoken, hbehind]
  rfl

/-! ## §4 Block scalars -/

/-- Whether a value is a block scalar, with or without a tag in front of its indicator. -/
def isBlock (value : List Char) : Bool :=
  match value with
  | '!' :: _ => startsBlock (trimStart (value.dropWhile fun c => !isBlank c))
  | _ => startsBlock value

/-- Whether a line gives its key a block scalar. -/
def opensBlock (body : List Char) : Bool :=
  match body with
  | [] => false
  | c :: _ =>
    c ≠ '!' && c ≠ '#' && match valueOf? body with
      | some (_, value) => isBlock value
      | none => false

/-- Whether a line belongs to the block scalar of a key. -/
def Line.Within (indent : Nat) (l : Line) : Prop := l.body.isEmpty = true ∨ indent < l.indent

theorem inBlock_of_within {st : LineState} {parent : Nat} {l : Line} (hst : st.blockParent = some parent)
    (h : l.Within parent) : inBlock st l = true := by
  simpa [inBlock, hst, Line.Within] using h

theorem rewriteValue_block {value : List Char} (h : isBlock value = true) (st : LineState) (parent : Nat)
    (before : List Char) : (rewriteValue st parent parent before value).2.blockParent = some parent := by
  unfold rewriteValue
  split
  · rw [isBlock] at h
    simp only [h, ↓reduceIte]
  · rename_i hmark
    rw [isBlock] at h
    · simp only [h, ↓reduceIte]
    · exact hmark

theorem opensBlock_iff {body : List Char} : opensBlock body = true ↔
    body.head? ≠ some '!' ∧ isVoid body = false ∧
      ∃ before value, valueOf? body = some (before, value) ∧ isBlock value = true := by
  cases body with
  | nil => simp [opensBlock, isVoid]
  | cons c cs =>
    cases hvalue : valueOf? (c :: cs) with
    | none => simp [opensBlock, hvalue]
    | some r =>
      obtain ⟨before, value⟩ := r
      simp [opensBlock, hvalue, isVoid, and_assoc]

theorem rewriteBody_block {body : List Char} (h : opensBlock body = true) (st : LineState) (indent : Nat) :
    (rewriteBody st indent body).2.blockParent = some indent := by
  obtain ⟨hmark, -, before, value, hvalue, hblock⟩ := opensBlock_iff.mp h
  unfold rewriteBody
  simp only
  split
  · exact absurd rfl hmark
  · rw [hvalue]
    exact rewriteValue_block hblock _ indent before

/-- Behind the key of a block scalar, its text is passed over. -/
theorem inBlock_behind_key {l : Line} (h : opensBlock l.body = true) (st : LineState) {m : Line}
    (hm : m.Within l.indent) : inBlock (rewriteLine st l).2 m = true := by
  obtain ⟨-, hvoid, before, value, hvalue, -⟩ := opensBlock_iff.mp h
  have hbody : l.body.isEmpty = false := by
    rw [List.isEmpty_eq_false_iff]
    rintro hnil
    rw [hnil] at hvoid
    cases hvoid
  have hdocument : l.body ≠ ['-', '-', '-'] := by
    intro hdashes
    have hnone : valueOf? ['-', '-', '-'] = none := by decide
    rw [hdashes, hnone] at hvalue
    cases hvalue
  by_cases hin : inBlock st l = true
  · -- The key itself stands in the block scalar of a key further out.
    rw [rewriteLine, if_pos hin]
    unfold inBlock at hin
    split at hin
    · rename_i parent hparent
      have hdeeper : parent < l.indent := by simpa [hbody] using hin
      exact inBlock_of_within hparent (hm.imp_right hdeeper.trans)
    · cases hin
  · rw [rewriteLine, if_neg hin, hvoid, if_neg Bool.false_ne_true, if_neg hdocument]
    exact inBlock_of_within (rewriteBody_block h _ l.indent) hm

/-- The lines of a block scalar are passed over one after another. -/
theorem rewriteLines_inBlock {st : LineState} {content : List Line} (h : ∀ m ∈ content, inBlock st m = true)
    (ls : List Line) : rewriteLines st (content ++ ls) = content ++ rewriteLines st ls := by
  induction content with
  | nil => rfl
  | cons m content ih =>
    have hline : rewriteLine st m = (m, st) := by rw [rewriteLine, if_pos (h m List.mem_cons_self)]
    rw [List.cons_append, rewriteLines, hline, ih fun n hn => h n (List.mem_cons_of_mem m hn), List.cons_append]

end Phrasebook.SourceTag
