import Phrasebook.Proofs.Source.TagEncoding
import Phrasebook.Proofs.Text.Blank
import Phrasebook.Proofs.Traverse

/-!
# What the rewriting of tags does to the lines of a text

The rewriting changes no line but for one tag, and the lines of the new text are those of the old one. A second
rewriting meets the same values behind the same keys and the same block scalars, and finds no tag to change.

## Layers

1. **Values**: in front of another value, a key is cut as before.
2. **One line**: `TagFound` says where a line has its tag; `rewriteLine_eq` what the line is rewritten to, and
   `rewriteLine_idem` that it stays so.
3. **Texts**: by induction on the lines, at every state of the rewriting.
-/

namespace Phrasebook.SourceTag

open Phrasebook.Text

/-! ## §1 Values -/

theorem quotedKey_cons {quote c : Char} (hc : c ≠ '\\') (cs : List Char) :
    quotedKey quote (c :: cs) =
      if c = quote then ([c], cs) else (c :: (quotedKey quote cs).1, (quotedKey quote cs).2) := by
  rw [quotedKey]
  exact fun _ _ heq => absurd heq hc

/-- Behind a quoted key that is closed, anything may stand. -/
theorem quotedKey_replace {quote : Char} {s : List Char} (h : (quotedKey quote s).2 ≠ []) (t : List Char) :
    quotedKey quote ((quotedKey quote s).1 ++ t) = ((quotedKey quote s).1, t) := by
  fun_induction quotedKey quote s with
  | case1 => exact absurd rfl h
  | case2 c cs hquote r ih =>
    show quotedKey quote ('\\' :: c :: ((quotedKey quote cs).1 ++ t)) = _
    rw [quotedKey, if_pos hquote, ih h]
  | case3 cs hquote =>
    show quotedKey quote ('\\' :: quote :: t) = _
    rw [quotedKey, if_neg hquote, if_pos rfl]
  | case4 c cs hquote hc r ih =>
    show quotedKey quote ('\\' :: c :: ((quotedKey quote cs).1 ++ t)) = _
    rw [quotedKey, if_neg hquote, if_neg hc, ih h]
  | case5 cs hslash =>
    -- A backslash before more text is read with the character behind it.
    obtain ⟨d, ds, hds⟩ := List.exists_cons_of_ne_nil h
    have hquote : quote ≠ '\\' := fun heq => hslash d ds heq hds
    show quotedKey quote (quote :: t) = _
    rw [quotedKey_cons hquote, if_pos rfl]
  | case6 c cs hslash hquote r ih =>
    have hc : c ≠ '\\' := by
      rintro rfl
      cases cs with
      | nil => exact h rfl
      | cons d ds => exact hslash d ds rfl rfl
    show quotedKey quote (c :: ((quotedKey quote cs).1 ++ t)) = _
    rw [quotedKey_cons hc, if_neg hquote, ih h]

theorem afterKey_colon (b : Bool) (c : Char) (cs : List Char) :
    afterKey b (':' :: c :: cs) =
      if c = ' ' || c = '\t' then some (':' :: (c :: cs).takeWhile isBlank, (c :: cs).dropWhile isBlank)
      else (afterKey false (c :: cs)).map fun r => (':' :: r.1, r.2) := by
  rw [afterKey]

theorem afterKey_cons {c : Char} (hc : c ≠ ':') (b : Bool) (cs : List Char) :
    afterKey b (c :: cs) =
      if c = '#' && b then none else (afterKey (c = ' ') cs).map fun r => (c :: r.1, r.2) := by
  rw [afterKey]
  exact hc

/-- A key in front of a value ends with its colon and the blanks behind it. -/
theorem afterKey_blanks {b : Bool} {s before value : List Char} (h : afterKey b s = some (before, value))
    (hvalue : value ≠ []) : ∃ key blanks, before = key ++ ':' :: blanks ∧ blanks ≠ [] ∧ Blanks blanks := by
  -- By induction on the search for the colon: it stands here (`case3`), or behind more of the key.
  fun_induction afterKey b s generalizing before with
  | case1 => cases h
  | case2 =>
    cases h
    exact absurd rfl hvalue
  | case3 b c cs hblank =>
    cases h
    have hc := isBlank_of_gap hblank
    refine ⟨[], (c :: cs).takeWhile isBlank, rfl, ?_, fun d hd => List.mem_takeWhile_imp hd⟩
    rw [List.takeWhile_cons_of_pos hc]
    exact List.cons_ne_nil _ _
  | case4 b c cs hblank ih =>
    obtain ⟨r, hr, hcut⟩ := Option.map_eq_some_iff.mp h
    cases hcut
    obtain ⟨key, blanks, hbefore, hblanks⟩ := ih hr
    exact ⟨':' :: key, blanks, by rw [hbefore]; rfl, hblanks⟩
  | case5 => cases h
  | case6 b c cs hcolon hcomment ih =>
    obtain ⟨r, hr, hcut⟩ := Option.map_eq_some_iff.mp h
    cases hcut
    obtain ⟨key, blanks, hbefore, hblanks⟩ := ih hr
    exact ⟨c :: key, blanks, by rw [hbefore]; rfl, hblanks⟩

/-- The part before a value starts as the text does. -/
theorem Cut.exists_cons {c : Char} {cs before value : List Char} (h : Cut (c :: cs) before value) (hvalue : value ≠ []) :
    ∃ front, before = c :: front := by
  obtain ⟨_ | ⟨d, front⟩, e, rfl, -⟩ := h.blank hvalue
  · exact ⟨[], congrArg (· :: []) (List.cons.inj h.append).1⟩
  · exact ⟨front ++ [e], congrArg (· :: (front ++ [e])) (List.cons.inj h.append).1⟩

/-- Behind a key, another value may stand. -/
theorem afterKey_replace {b : Bool} {s before value : List Char} (h : afterKey b s = some (before, value))
    (hvalue : value ≠ []) {d : Char} (hd : isBlank d = false) (t : List Char) :
    afterKey b (before ++ d :: t) = some (before, d :: t) := by
  fun_induction afterKey b s generalizing before with
  | case1 => cases h
  | case2 =>
    cases h
    exact absurd rfl hvalue
  | case3 b c cs hblank =>
    cases h
    -- The blanks end in front of the other value as they did in front of the old one.
    obtain ⟨htake, hdrop⟩ := takeWhile_append_stop (p := isBlank) (s := (c :: cs).takeWhile isBlank) (t := d :: t)
      (fun x hx => List.mem_takeWhile_imp hx) (fun x hx => Option.some.inj hx ▸ hd)
    have hcons : (c :: cs).takeWhile isBlank = c :: cs.takeWhile isBlank :=
      List.takeWhile_cons_of_pos (isBlank_of_gap hblank)
    rw [hcons, List.cons_append] at htake hdrop
    rw [hcons, List.cons_append, List.cons_append, afterKey_colon, if_pos hblank, htake, hdrop]
  | case4 b c cs hblank ih =>
    obtain ⟨r, hr, hcut⟩ := Option.map_eq_some_iff.mp h
    cases hcut
    obtain ⟨front, hfront⟩ := (afterKey_cut hr).exists_cons hvalue
    have hrest := ih hr
    rw [hfront, List.cons_append] at hrest
    rw [hfront, List.cons_append, List.cons_append, afterKey_colon, if_neg hblank, hrest]
    rfl
  | case5 => cases h
  | case6 b c cs hcolon hcomment ih =>
    obtain ⟨r, hr, hcut⟩ := Option.map_eq_some_iff.mp h
    cases hcut
    rw [List.cons_append, afterKey_cons hcolon, if_neg hcomment, ih hr]
    rfl

theorem valueOf?_blanks {s before value : List Char} (h : valueOf? s = some (before, value)) (hvalue : value ≠ []) :
    ∃ key blanks, before = key ++ ':' :: blanks ∧ blanks ≠ [] ∧ Blanks blanks := by
  cases s with
  | nil => cases h
  | cons c cs =>
    rw [valueOf?] at h
    split at h
    · obtain ⟨r, hr, hcut⟩ := Option.map_eq_some_iff.mp h
      cases hcut
      obtain ⟨key, blanks, hbefore, hblanks⟩ := afterKey_blanks hr hvalue
      refine ⟨c :: ((quotedKey c cs).1 ++ key), blanks, ?_, hblanks⟩
      rw [hbefore, List.cons_append, List.append_assoc]
    · exact afterKey_blanks h hvalue

theorem valueOf?_replace {s before value : List Char} (h : valueOf? s = some (before, value)) (hvalue : value ≠ [])
    {d : Char} (hd : isBlank d = false) (t : List Char) :
    valueOf? (before ++ d :: t) = some (before, d :: t) := by
  cases s with
  | nil => cases h
  | cons c cs =>
    have hcut := valueOf?_cut h
    rw [valueOf?] at h
    split at h
    · rename_i hquote
      obtain ⟨r, hr, hparts⟩ := Option.map_eq_some_iff.mp h
      cases hparts
      -- The quotes are closed, for a colon stands behind them.
      have hclosed : (quotedKey c cs).2 ≠ [] := by
        intro hnil
        rw [hnil] at hr
        cases hr
      rw [List.cons_append, valueOf?, if_pos hquote, List.append_assoc, quotedKey_replace hclosed]
      simp only [afterKey_replace hr hvalue hd, Option.map_some]
    · rename_i hplain
      obtain ⟨front, rfl⟩ := hcut.exists_cons hvalue
      rw [List.cons_append, valueOf?, if_neg hplain]
      exact afterKey_replace h hvalue hd t

/-! ## §2 One line -/

/-- A tag in the body of a line, up to the next blank: at the start of the body, or behind the colon of a key. -/
structure TagAt (body before token behind : List Char) : Prop where
  append : before ++ token ++ behind = body
  mark : ∃ cs, token = '!' :: cs
  visible : ∀ c ∈ token, isBlank c = false
  stop : ∀ c, behind.head? = some c → isBlank c = true
  place : before = [] ∨ valueOf? body = some (before, token ++ behind) ∧
    ∃ key blanks, before = key ++ ':' :: blanks ∧ blanks ≠ [] ∧ Blanks blanks

/-- A line with another form of a tag in place of the tag. -/
inductive Line.Retagged (l : Line) : Line → Prop where
  | same : l.Retagged l
  | tag {before token tag behind : List Char} (hat : TagAt l.body before token behind)
      (hnormal : normalizeToken? token = some tag) : l.Retagged { l with body := before ++ tag ++ behind }

/-- Where the rewriting looks for a tag: at the start of a line on which a value may start, or else behind a key. The
indices are the indentation that a block scalar there goes by, the part in front of the value, and the value. -/
inductive Found (st : LineState) (indent : Nat) (body : List Char) : Nat → List Char → List Char → Prop where
  | start {parent : Nat} {cs : List Char} (hpending : st.pending = some parent) (hbody : body = '!' :: cs) :
      Found st indent body parent [] ('!' :: cs)
  | key {before value : List Char} (hstart : st.pending = none ∨ body.head? ≠ some '!')
      (hvalue : valueOf? body = some (before, value)) : Found st indent body indent before value

theorem rewriteBody_start {st : LineState} {parent : Nat} (h : st.pending = some parent) (indent : Nat)
    (cs : List Char) :
    rewriteBody st indent ('!' :: cs) = rewriteValue { st with pending := none } parent indent [] ('!' :: cs) := by
  unfold rewriteBody
  simp only [h]

theorem rewriteBody_key {st : LineState} {body : List Char} (h : st.pending = none ∨ body.head? ≠ some '!')
    (indent : Nat) :
    rewriteBody st indent body = match valueOf? body with
      | some (before, value) => rewriteValue { st with pending := none } indent indent before value
      | none => (body, { st with pending := none }) := by
  unfold rewriteBody
  simp only
  split
  · rename_i hpending
    rcases h with hnone | hmark
    · rw [hnone] at hpending
      cases hpending
    · exact absurd rfl hmark
  · rfl

namespace Found

variable {st : LineState} {indent parent : Nat} {body before value : List Char}

theorem rewriteBody_eq (h : Found st indent body parent before value) :
    rewriteBody st indent body = rewriteValue { st with pending := none } parent indent before value := by
  cases h with
  | start hpending hbody => rw [hbody, rewriteBody_start hpending]
  | key hstart hvalue => rw [rewriteBody_key hstart, hvalue]

theorem append (h : Found st indent body parent before value) : before ++ value = body := by
  cases h with
  | start hpending hbody => exact hbody.symm
  | key hstart hvalue => exact (valueOf?_cut hvalue).append

theorem place (h : Found st indent body parent before value) (hvalue : value ≠ []) :
    before = [] ∨ valueOf? body = some (before, value) ∧
      ∃ key blanks, before = key ++ ':' :: blanks ∧ blanks ≠ [] ∧ Blanks blanks := by
  cases h with
  | start hpending hbody => exact .inl rfl
  | key hstart hkey => exact .inr ⟨hkey, valueOf?_blanks hkey hvalue⟩

/-- A tag is looked for in the same place when another one stands there. -/
theorem replace {cs : List Char} (h : Found st indent body parent before ('!' :: cs)) (cs' : List Char) :
    Found st indent (before ++ '!' :: cs') parent before ('!' :: cs') := by
  cases h with
  | start hpending hbody => exact .start hpending rfl
  | key hstart hvalue =>
    have hne : '!' :: cs ≠ [] := List.cons_ne_nil _ _
    have hcut := valueOf?_cut hvalue
    refine .key (hstart.imp_right ?_) (valueOf?_replace hvalue hne rfl cs')
    -- The line starts with its key as before.
    obtain ⟨front, c, rfl, -⟩ := hcut.blank hne
    rw [← hcut.append]
    cases front with
    | nil => exact id
    | cons d front => exact id

end Found

/-- A line without a place to look for a tag is kept. -/
theorem exists_found (st : LineState) (indent : Nat) (body : List Char) :
    (rewriteBody st indent body).1 = body ∨ ∃ parent before value, Found st indent body parent before value := by
  by_cases hstart : st.pending = none ∨ body.head? ≠ some '!'
  · cases hvalue : valueOf? body with
    | none =>
      left
      rw [rewriteBody_key hstart, hvalue]
    | some r =>
      right
      exact ⟨indent, r.1, r.2, .key hstart hvalue⟩
  · -- A value may start here, and it starts with a tag.
    rw [not_or, not_not] at hstart
    obtain ⟨parent, hpending⟩ := Option.ne_none_iff_exists'.mp hstart.1
    obtain ⟨cs, hbody⟩ := List.head?_eq_some_iff.mp hstart.2
    right
    exact ⟨parent, [], '!' :: cs, .start hpending hbody⟩

/-- A line of its own that is neither empty nor a comment nor the start of a document. -/
theorem rewriteLine_body {st : LineState} {l : Line} (houtside : inBlock st l = false)
    (hcontent : isVoid l.body = false) (hdocument : l.body ≠ ['-', '-', '-']) :
    rewriteLine st l = ({ l with body := (rewriteBody { st with blockParent := none } l.indent l.body).1 },
      (rewriteBody { st with blockParent := none } l.indent l.body).2) := by
  rw [rewriteLine, houtside, if_neg Bool.false_ne_true, hcontent, if_neg Bool.false_ne_true, if_neg hdocument]

/-- A line with a tag that the rewriting finds. -/
structure TagFound (st : LineState) (l : Line) (parent : Nat) (before w behind : List Char) : Prop where
  outside : inBlock st l = false
  content : isVoid l.body = false
  found : Found { st with blockParent := none } l.indent l.body parent before ('!' :: (w ++ behind))
  visible : ∀ c ∈ w, isBlank c = false
  stop : ∀ c, behind.head? = some c → isBlank c = true

namespace TagFound

variable {st : LineState} {l : Line} {parent : Nat} {before w behind : List Char}

theorem rewriteLine_eq (h : TagFound st l parent before w behind) :
    rewriteLine st l = ({ l with body := before ++ (normalizeToken? ('!' :: w)).getD ('!' :: w) ++ behind },
      LineState.behindTag ⟨none, none⟩ parent (trimStart behind)) := by
  have hdocument : l.body ≠ ['-', '-', '-'] := by
    intro hdashes
    have hmem : '!' ∈ l.body := by
      rw [← h.found.append]
      simp
    rw [hdashes] at hmem
    exact absurd hmem (by decide)
  rw [rewriteLine_body h.outside h.content hdocument, h.found.rewriteBody_eq,
    rewriteValue_tag _ _ _ _ h.visible h.stop]

theorem tagAt (h : TagFound st l parent before w behind) : TagAt l.body before ('!' :: w) behind where
  append := by
    rw [List.append_assoc]
    exact h.found.append
  mark := ⟨w, rfl⟩
  visible := List.forall_mem_cons.mpr ⟨rfl, h.visible⟩
  stop := h.stop
  place := h.found.place (List.cons_ne_nil _ _)

/-- Another tag in the place of a tag is found as well. -/
theorem replace (h : TagFound st l parent before w behind) {w' : List Char} (hw' : ∀ c ∈ w', isBlank c = false) :
    TagFound st { l with body := before ++ '!' :: w' ++ behind } parent before w' behind where
  outside := by
    have hempty : (before ++ '!' :: w' ++ behind).isEmpty = l.body.isEmpty := by
      rw [← h.found.append, List.append_assoc]
      cases before <;> rfl
    have houtside := h.outside
    unfold inBlock at houtside ⊢
    simp only [hempty]
    exact houtside
  content := by
    have hcontent := h.content
    rw [← h.found.append] at hcontent
    -- Whether a line is a comment is seen in front of the tag, or at its mark.
    cases before with
    | nil => rfl
    | cons d front => exact hcontent
  found := by
    have hfound := h.found.replace (w' ++ behind)
    rwa [← List.cons_append, ← List.append_assoc] at hfound
  visible := hw'
  stop := h.stop

end TagFound

/-- A line is kept, or else a tag is found on it. -/
theorem exists_tagFound (st : LineState) (l : Line) :
    (rewriteLine st l).1 = l ∨ ∃ parent before w behind, TagFound st l parent before w behind := by
  by_cases hblock : inBlock st l = true
  · left
    rw [rewriteLine, if_pos hblock]
  by_cases hvoid : isVoid l.body = true
  · left
    rw [rewriteLine, if_neg hblock, if_pos hvoid]
  by_cases hdashes : l.body = ['-', '-', '-']
  · left
    rw [rewriteLine, if_neg hblock, if_neg hvoid, if_pos hdashes]
  rw [Bool.not_eq_true] at hblock hvoid
  rcases exists_found { st with blockParent := none } l.indent l.body with hkept | ⟨parent, before, value, hfound⟩
  · left
    rw [rewriteLine_body hblock hvoid hdashes, hkept]
  by_cases hmark : ∃ cs, value = '!' :: cs
  · right
    obtain ⟨cs, rfl⟩ := hmark
    -- The tag ends at the first blank.
    rw [← List.takeWhile_append_dropWhile (p := fun c => !isBlank c) (l := cs)] at hfound
    refine ⟨parent, before, _, _, hblock, hvoid, hfound, fun c hc => ?_, fun c hc => ?_⟩
    · simpa using List.mem_takeWhile_imp hc
    · simpa using not_of_head?_dropWhile hc
  · left
    rw [rewriteLine_body hblock hvoid hdashes, hfound.rewriteBody_eq,
      rewriteValue_untagged _ _ _ _ hmark, hfound.append]

theorem retagged_rewriteLine (st : LineState) (l : Line) : l.Retagged (rewriteLine st l).1 := by
  rcases exists_tagFound st l with hkept | ⟨parent, before, w, behind, hfound⟩
  · rw [hkept]
    exact .same
  · rw [hfound.rewriteLine_eq]
    cases hnormal : normalizeToken? ('!' :: w) with
    | none =>
      rw [Option.getD_none, hfound.tagAt.append]
      exact .same
    | some tag => exact .tag hfound.tagAt hnormal

/-- A rewritten tag has no blank. -/
theorem visible_written (payload : List Char) : ∀ c ∈ '!' :: payload.flatMap writtenChar, isBlank c = false :=
  List.forall_mem_cons.mpr ⟨rfl, fun _ hc => isBlank_of_isTagChar (isTagChar_of_mem_written hc)⟩

/-- A line is rewritten once: behind the same lines, the new line is kept and leaves the same state. -/
theorem rewriteLine_idem (st : LineState) (l : Line) : rewriteLine st (rewriteLine st l).1 = rewriteLine st l := by
  rcases exists_tagFound st l with hkept | ⟨parent, before, w, behind, hfound⟩
  · rw [hkept]
  · cases hnormal : normalizeToken? ('!' :: w) with
    | none =>
      have hkept : (rewriteLine st l).1 = l := by
        rw [hfound.rewriteLine_eq, hnormal, Option.getD_none, hfound.tagAt.append]
      rw [hkept]
    | some tag =>
      have hagain := normalizeToken?_idem hnormal
      obtain ⟨payload, -, rfl⟩ := of_normalizeToken? hnormal
      -- The new tag is found where the old one was, and it is one that is kept.
      have hfound' := hfound.replace fun c hc => visible_written payload c (List.mem_cons_of_mem _ hc)
      rw [hfound.rewriteLine_eq, hnormal, Option.getD_some, hfound'.rewriteLine_eq, hagain, Option.getD_none]

/-! ## §3 Texts -/

theorem retagged_rewriteLines (st : LineState) (ls : List Line) :
    List.Forall₂ Line.Retagged ls (rewriteLines st ls) := by
  induction ls generalizing st with
  | nil => exact .nil
  | cons l ls ih => exact .cons (retagged_rewriteLine st l) (ih _)

theorem rewriteLines_idem (st : LineState) (ls : List Line) :
    rewriteLines st (rewriteLines st ls) = rewriteLines st ls := by
  -- The new line leaves the state that the old one leaves, so both scans stay in step.
  induction ls generalizing st with
  | nil => rfl
  | cons l ls ih => rw [rewriteLines, rewriteLines, rewriteLine_idem, ih]

/-- The text of a block scalar is copied, wherever its key stands. -/
theorem rewriteLines_block (st : LineState) (front : List Line) {l : Line} {content : List Line}
    (hopens : opensBlock l.body = true) (hcontent : ∀ m ∈ content, m.Within l.indent) (rest : List Line) :
    ∃ front' l' rest', rewriteLines st (front ++ l :: (content ++ rest)) = front' ++ l' :: (content ++ rest') ∧
      front'.length = front.length := by
  induction front generalizing st with
  | nil =>
    refine ⟨[], (rewriteLine st l).1, rewriteLines (rewriteLine st l).2 rest, ?_, rfl⟩
    rw [List.nil_append, rewriteLines, rewriteLines_inBlock fun m hm => inBlock_behind_key hopens st (hcontent m hm)]
    rfl
  | cons m front ih =>
    obtain ⟨front', l', rest', hlines, hlength⟩ := ih (rewriteLine st m).2
    refine ⟨(rewriteLine st m).1 :: front', l', rest', ?_, ?_⟩
    · rw [List.cons_append, rewriteLines, hlines, List.cons_append]
    · rw [List.length_cons, List.length_cons, hlength]

theorem isLineEnd_of_visible {c : Char} (h : isBlank c = false) : isLineEnd c = false := by
  by_contra hend
  rw [Bool.not_eq_false, isLineEnd, Bool.or_eq_true, decide_eq_true_eq, decide_eq_true_eq] at hend
  rcases hend with rfl | rfl <;> cases h

namespace Line.Retagged

variable {l l' : Line}

theorem proper (h : l.Retagged l') (hl : l.Proper) : l'.Proper := by
  cases h with
  | same => exact hl
  | @tag before token tag behind hat hnormal =>
    obtain ⟨cs, rfl⟩ := hat.mark
    obtain ⟨payload, -, rfl⟩ := of_normalizeToken? hnormal
    refine ⟨?_, ?_, hl.ending⟩
    · -- The line starts as before, or else with the mark of the tag.
      have hstart := hl.start
      rw [← hat.append] at hstart
      cases before with
      | nil => exact fun h => by cases h
      | cons d front => exact hstart
    · intro c hc
      have hfinish := hl.finish c
      rw [← hat.append, List.getLast?_append] at hfinish
      simp only [List.getLast?_append] at hc
      cases hbehind : behind.getLast? with
      | some d =>
        rw [hbehind] at hc hfinish
        exact hfinish hc
      | none =>
        -- The tag ends the line, and its last character is no blank.
        obtain ⟨d, hd⟩ : ∃ d, ('!' :: payload.flatMap writtenChar).getLast? = some d :=
          ⟨_, List.getLast?_eq_some_getLast (List.cons_ne_nil _ _)⟩
        rw [hbehind, hd] at hc
        cases hc
        exact isLineEnd_of_visible (visible_written payload _ (List.mem_of_getLast? hd))

/-- Neither form of a tag has a line feed. -/
theorem reworded (h : l.Retagged l') : Reworded l.chars l'.chars := by
  cases h with
  | same => exact .inl rfl
  | @tag before token tag behind hat hnormal =>
    have hfeed : ∀ {s : List Char}, (∀ c ∈ s, isBlank c = false) → '\n' ∉ s := fun hs hmem =>
      absurd (hs '\n' hmem) (by decide)
    obtain ⟨cs, rfl⟩ := hat.mark
    obtain ⟨payload, -, rfl⟩ := of_normalizeToken? hnormal
    refine .inr ⟨List.replicate l.indent ' ' ++ before, _, _, behind ++ l.ending, ?_, ?_, List.cons_ne_nil _ _,
      List.cons_ne_nil _ _, hfeed hat.visible, hfeed (visible_written payload)⟩
    · rw [Line.chars, ← hat.append]
      simp only [List.append_assoc]
    · rw [Line.chars]
      simp only [List.append_assoc]

end Line.Retagged

/-- The text with its tags rewritten. -/
def retagged (text : String) : String := String.ofList (normalizeTags text.toList)

theorem toList_retagged (text : String) :
    (retagged text).toList = ((rewriteLines .start (linesIn text)).map Line.chars).flatten := by
  rw [retagged, String.toList_ofList, normalizeTags, List.flatMap_def]
  rfl

/-- The lines of the new text are the rewritten lines of the old one. -/
theorem linesIn_retagged (text : String) : linesIn (retagged text) = rewriteLines .start (linesIn text) := by
  have hretagged := retagged_rewriteLines .start (linesIn text)
  have hlines : AreLines ((linesIn text).map Line.chars) := by
    rw [linesIn, List.map_map]
    rw [show (linesOf text.toList).map (Line.chars ∘ Line.ofChars) = linesOf text.toList from
      List.map_id'' Line.chars_ofChars _]
    exact areLines_linesOf _
  -- Rewriting keeps the end of each line and puts no line feed into it, so the new lines are lines again.
  have hnew : AreLines ((rewriteLines .start (linesIn text)).map Line.chars) := by
    apply hlines.reworded
    rw [List.forall₂_map_left_iff, List.forall₂_map_right_iff]
    exact hretagged.imp fun _ _ h => h.reworded
  have hproper : ∀ l ∈ rewriteLines .start (linesIn text), Line.ofChars l.chars = l := by
    intro l' hl'
    obtain ⟨l, hl, hll'⟩ := exists_of_forall₂_of_mem_right hretagged hl'
    obtain ⟨s, -, rfl⟩ := List.mem_map.mp hl
    exact (hll'.proper (Line.proper_ofChars s)).ofChars_chars
  rw [linesIn, toList_retagged, hnew.linesOf_flatten, List.map_map]
  exact (List.map_congr_left hproper).trans (List.map_id _)

/-- **Lines**: a text keeps its lines but for the forms of tags. The text of a block scalar is copied, and rewriting the
tags of the new text changes nothing. -/
theorem retagged_lines (text : String) :
    List.Forall₂ Line.Retagged (linesIn text) (linesIn (retagged text)) ∧
    (∀ front l content rest, linesIn text = front ++ l :: (content ++ rest) → opensBlock l.body = true →
      (∀ m ∈ content, m.Within l.indent) →
        ∃ front' l' rest', linesIn (retagged text) = front' ++ l' :: (content ++ rest') ∧
          front'.length = front.length) ∧
    retagged (retagged text) = retagged text := by
  refine ⟨?_, fun front l content rest hlines hopens hcontent => ?_, ?_⟩
  · rw [linesIn_retagged]
    exact retagged_rewriteLines _ _
  · rw [linesIn_retagged, hlines]
    exact rewriteLines_block _ front hopens hcontent rest
  · apply String.toList_inj.mp
    rw [toList_retagged, linesIn_retagged, rewriteLines_idem, toList_retagged]

/-- Both tags outside the block scalar are rewritten, and the one in its text is not. -/
theorem retagged_lines_block :
    retagged "k: !a,b |\n  x: !c,d\nn: !c,d v\n" = "k: !a%2Cb |\n  x: !c,d\nn: !c%2Cd v\n" ∧
    ∃ front' l' rest', linesIn (retagged "k: !a,b |\n  x: !c,d\nn: !c,d v\n")
        = front' ++ l' :: ([⟨2, "x: !c,d".toList, ['\n']⟩] ++ rest') ∧ front'.length = 0 := by
  have hlines : linesIn "k: !a,b |\n  x: !c,d\nn: !c,d v\n" = [] ++ ⟨0, "k: !a,b |".toList, ['\n']⟩ ::
      ([⟨2, "x: !c,d".toList, ['\n']⟩] ++ [⟨0, "n: !c,d v".toList, ['\n']⟩]) := by decide +kernel
  have hopens : opensBlock "k: !a,b |".toList = true := by decide +kernel
  refine ⟨by decide +kernel, (retagged_lines _).2.1 [] _ _ _ hlines hopens fun m hm => ?_⟩
  obtain rfl := List.mem_singleton.mp hm
  exact .inr Nat.zero_lt_two

end Phrasebook.SourceTag
