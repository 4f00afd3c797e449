import Phrasebook.Emission.Expression
import Phrasebook.Proofs.Template
import Mathlib.Data.List.TakeWhile

/-!
# Tokens of generated code

How generated code is read: as words, texts and marks. A text is a raw literal or a literal between quotes; blanks
and comments only separate tokens.

## Layers

- `LexState.step`, `tokensFrom`: reading goes through the code once, character by character.
- `Complete` and `Stoppable`: code that can be read apart from what stands behind it.
- `lex_rawLiteralChars`: a raw literal is one text, whatever its characters are.
- `lex_commaList`, `lex_callText`, `lex_written`: code with commas, calls and lines.
-/

namespace Phrasebook

open Phrasebook.Text

/-! ## §1 Reading -/

/-- A token of code. -/
inductive Token where
  /-- A name or a keyword. -/
  | word (text : String)
  /-- A literal, by the text that it means. -/
  | text (content : String)
  /-- Any other character. -/
  | mark (c : Char)
  /-- What is no token. -/
  | fault
  deriving DecidableEq, Repr

/-- Where reading has come to. What has been read of a token is given backwards. -/
inductive LexState where
  /-- Between tokens, with characters of the last token still to be passed over. -/
  | code (skip : Nat)
  | word (read : List Char)
  /-- In a raw literal with hash signs. -/
  | raw (fence : Nat) (read : List Char)
  /-- In a literal between quotes. -/
  | quoted (read : List Char)
  | comment

namespace LexState

/-- A word that is read. -/
def wordToken (read : List Char) : Token := .word (String.ofList read.reverse)

/-- The number of hash signs when a word begins a raw literal. -/
def fence? (read : List Char) : Option Nat :=
  if read.dropWhile (· == '#') = ['r'] then some (read.takeWhile (· == '#')).length else none

/-- Reads a character between tokens, `behind` being the characters behind it. -/
def enter (c : Char) (behind : List Char) : List Token × LexState :=
  if c = ' ' || c = '\n' then ([], code 0)
  else if isIdentifierChar c then ([], word [c])
  else if c = '"' then ([], quoted [])
  else if c = '/' && behind.head? = some '/' then ([], comment)
  else ([.mark c], code 0)

/-- Reads a character, `behind` being the characters behind it. -/
def step (state : LexState) (c : Char) (behind : List Char) : List Token × LexState :=
  match state with
  | code 0 => enter c behind
  | code (skip + 1) => ([], code skip)
  | word read =>
    if isIdentifierChar c || (c = '#' && (fence? read).isSome) then ([], word (c :: read))
    else match fence? read, c with
      | some n, '"' => ([], raw n [])
      | _, _ => (wordToken read :: (enter c behind).1, (enter c behind).2)
  | raw n read =>
    -- The first quote with enough hash signs behind it ends the literal.
    if c = '"' && (List.replicate n '#').isPrefixOf behind then ([.text (String.ofList read.reverse)], code n)
    else ([], raw n (c :: read))
  | quoted read =>
    if c = '"' then ([.text (String.ofList read.reverse)], code 0)
    else if c = '\\' then ([.fault], quoted read)
    else ([], quoted (c :: read))
  | comment => if c = '\n' then ([], code 0) else ([], comment)

/-- The tokens at the end of the code. -/
def last : LexState → List Token
  | code _ => []
  | word read => [wordToken read]
  | raw .. => [.fault]
  | quoted _ => [.fault]
  | comment => []

end LexState

/-- The tokens of code from a state on. -/
def tokensFrom (state : LexState) : List Char → List Token
  | [] => state.last
  | c :: cs => (state.step c cs).1 ++ tokensFrom (state.step c cs).2 cs

/-- The tokens of code. -/
def lex (code : List Char) : List Token := tokensFrom (.code 0) code

theorem tokensFrom_cons (state : LexState) (c : Char) (cs : List Char) :
    tokensFrom state (c :: cs) = (state.step c cs).1 ++ tokensFrom (state.step c cs).2 cs := rfl

/-! ## §2 Composition -/

/-- Code that is read apart from all that may stand behind it. -/
def Complete (code : List Char) : Prop := ∀ rest, lex (code ++ rest) = lex code ++ lex rest

/-- Whether a word ends in front of code. -/
def stopsWord : List Char → Bool
  | [] => true
  | c :: _ => !isIdentifierChar c && c ≠ '#' && c ≠ '"'

/-- Code that is read apart from what stands behind it when that is no part of a word. -/
def Stoppable (code : List Char) : Prop := ∀ rest, stopsWord rest = true → lex (code ++ rest) = lex code ++ lex rest

theorem Complete.stoppable {code : List Char} (h : Complete code) : Stoppable code := fun rest _ => h rest

theorem Complete.append {s t : List Char} (hs : Complete s) (ht : Complete t) : Complete (s ++ t) := by
  intro rest
  rw [List.append_assoc, hs, ht, hs, List.append_assoc]

theorem Complete.append_stoppable {s t : List Char} (hs : Complete s) (ht : Stoppable t) : Stoppable (s ++ t) := by
  intro rest hrest
  rw [List.append_assoc, hs, ht rest hrest, hs, List.append_assoc]

theorem Stoppable.append_complete {s t : List Char} {c : Char} (hs : Stoppable s) (ht : Complete (c :: t))
    (hstop : stopsWord [c] = true) : Complete (s ++ c :: t) := by
  intro rest
  have hbehind : lex (s ++ (c :: t ++ rest)) = lex s ++ lex (c :: t ++ rest) := hs _ hstop
  have halone : lex (s ++ c :: t) = lex s ++ lex (c :: t) := hs _ hstop
  rw [List.append_assoc, hbehind, halone, ht, List.append_assoc]

/-! ## §3 Words -/

/-- Whether a text is a word, which may be written raw. -/
def isWord : List Char → Bool
  | 'r' :: '#' :: c :: cs => isIdentifierChar c && cs.all isIdentifierChar
  | c :: cs => isIdentifierChar c && cs.all isIdentifierChar
  | [] => false

theorem isWord_of_all {w : List Char} (hne : w ≠ []) (h : w.all isIdentifierChar = true) : isWord w = true := by
  unfold isWord
  split
  · rename_i c cs
    have hhash : isIdentifierChar '#' = false := rfl
    simp [hhash] at h
  · exact h
  · exact absurd rfl hne

theorem isWord_of_isIdentifier {w : List Char} (h : isIdentifier w = true) : isWord w = true := by
  apply isWord_of_all _ (all_isIdentifierChar h)
  intro hnil
  subst hnil
  cases h

/-- An identifier may be written raw. -/
theorem isWord_raw {w : List Char} (h : isIdentifier w = true) : isWord ('r' :: '#' :: w) = true := by
  have hall := all_isIdentifierChar h
  cases w with
  | nil => cases h
  | cons c cs => exact hall

/-- A word is read to its end. -/
theorem tokensFrom_word {read w rest : List Char} (hw : w.all isIdentifierChar = true)
    (hrest : stopsWord rest = true) :
    tokensFrom (.word read) (w ++ rest) = LexState.wordToken (w.reverse ++ read) :: lex rest := by
  induction w generalizing read with
  | nil =>
    -- The next character is none of a word, of a fence or of a literal, so the word ends in front of it.
    cases rest with
    | nil => rfl
    | cons c cs =>
      simp only [stopsWord, Bool.and_eq_true, Bool.not_eq_true', decide_eq_true_eq, ne_eq] at hrest
      obtain ⟨⟨hc, hhash⟩, hquote⟩ := hrest
      have hstep : LexState.step (.word read) c cs
          = (LexState.wordToken read :: (LexState.enter c cs).1, (LexState.enter c cs).2) := by
        simp only [LexState.step, hc, hhash, Bool.false_or, decide_false, Bool.false_and, Bool.false_eq_true,
          ↓reduceIte]
        split
        · exact absurd rfl hquote
        · rfl
      rw [List.nil_append, tokensFrom_cons, hstep]
      rfl
  | cons c w ih =>
    rw [List.all_cons, Bool.and_eq_true] at hw
    have hstep : LexState.step (.word read) c (w ++ rest) = ([], .word (c :: read)) := by
      simp only [LexState.step, hw.1, Bool.true_or, ↓reduceIte]
    rw [List.cons_append, tokensFrom_cons, hstep, List.nil_append, ih hw.2, List.reverse_cons, List.append_assoc]
    rfl

theorem enter_of_isIdentifierChar {c : Char} (h : isIdentifierChar c = true) (behind : List Char) :
    LexState.enter c behind = ([], .word [c]) := by
  have hblank : ¬ (c = ' ' ∨ c = '\n') := by
    intro hc
    rcases hc with rfl | rfl
    · exact absurd h (by decide)
    · exact absurd h (by decide)
  simp only [LexState.enter, Bool.or_eq_true, decide_eq_true_eq, hblank, ↓reduceIte, h]

/-- A word is one token. -/
theorem lex_word {w rest : List Char} (hw : isWord w = true) (hrest : stopsWord rest = true) :
    lex (w ++ rest) = .word (String.ofList w) :: lex rest := by
  unfold isWord at hw
  split at hw
  · rename_i c cs
    -- The hash sign of a raw word does not begin a literal: no quote follows.
    have hall : (c :: cs).all isIdentifierChar = true := hw
    have hread : lex ('r' :: '#' :: c :: cs ++ rest) = tokensFrom (.word ['#', 'r']) (c :: cs ++ rest) := rfl
    rw [hread, tokensFrom_word hall hrest, LexState.wordToken, List.reverse_append, List.reverse_reverse]
    rfl
  · rename_i c cs _
    rw [Bool.and_eq_true] at hw
    have hread : lex (c :: cs ++ rest) = tokensFrom (.word [c]) (cs ++ rest) := by
      rw [List.cons_append, lex, tokensFrom_cons]
      show (LexState.enter c (cs ++ rest)).1 ++ tokensFrom (LexState.enter c (cs ++ rest)).2 (cs ++ rest) = _
      rw [enter_of_isIdentifierChar hw.1]
      rfl
    rw [hread, tokensFrom_word hw.2 hrest, LexState.wordToken, List.reverse_append, List.reverse_reverse]
    rfl
  · cases hw

theorem lex_of_isWord {w : List Char} (hw : isWord w = true) : lex w = [.word (String.ofList w)] := by
  have h := @lex_word w [] hw rfl
  rwa [List.append_nil] at h

theorem stoppable_of_isWord {w : List Char} (hw : isWord w = true) : Stoppable w := by
  intro rest hrest
  rw [lex_word hw hrest, lex_of_isWord hw]
  rfl

/-! ## §4 Literals -/

/-- The characters behind a literal are passed over. -/
theorem tokensFrom_code (skip rest : List Char) : tokensFrom (.code skip.length) (skip ++ rest) = lex rest := by
  induction skip with
  | nil => rfl
  | cons c skip ih =>
    rw [List.cons_append, tokensFrom_cons]
    exact ih

/-- No quote of a text has as many hash signs behind it as its fence has, even when the text goes on with the quote
that ends its literal. -/
theorem not_isPrefixOf_of_fenceLength_le {cs rest : List Char} {n : Nat} (h : fenceLength ('"' :: cs) ≤ n) :
    (List.replicate n '#').isPrefixOf (cs ++ '"' :: rest) = false := by
  have hshort : (cs.takeWhile (· == '#')).length < n := by
    simp only [fenceLength, ↓reduceIte] at h
    omega
  -- Such hash signs would be a run of `n` of them, but the run behind the quote is shorter.
  rw [Bool.eq_false_iff, ne_eq, List.isPrefixOf_iff_prefix]
  intro hprefix
  obtain ⟨tail, htail⟩ := hprefix
  have hlong : ((List.replicate n '#' ++ tail).takeWhile (· == '#')).length ≥ n := by
    rw [List.takeWhile_append_of_pos fun c hc => by simp [List.eq_of_mem_replicate hc], List.length_append,
      List.length_replicate]
    omega
  have hsame : ((cs ++ '"' :: rest).takeWhile (· == '#')).length = (cs.takeWhile (· == '#')).length := by
    rw [List.takeWhile_append]
    split
    · -- The run reaches to the end of the text, and the quote there ends it.
      rename_i hall
      rw [List.takeWhile_cons_of_neg (by decide), List.append_nil, hall]
    · rfl
  rw [htail, hsame] at hlong
  omega

/-- A raw literal is read to its end, since no quote of its text ends it. -/
theorem tokensFrom_raw {n : Nat} {read s rest : List Char} (h : fenceLength s ≤ n) :
    tokensFrom (.raw n read) (s ++ '"' :: (List.replicate n '#' ++ rest))
      = .text (String.ofList (read.reverse ++ s)) :: lex rest := by
  induction s generalizing read with
  | nil =>
    -- The quote behind the text has the whole fence behind it, which is passed over.
    have hfence : (List.replicate n '#').isPrefixOf (List.replicate n '#' ++ rest) = true := by
      rw [List.isPrefixOf_iff_prefix]
      exact List.prefix_append _ _
    have hskip := tokensFrom_code (List.replicate n '#') rest
    rw [List.length_replicate] at hskip
    rw [List.nil_append, tokensFrom_cons, LexState.step]
    simp only [hfence, decide_true, Bool.and_self, ↓reduceIte, List.append_nil, hskip]
    rfl
  | cons c s ih =>
    have htail : fenceLength s ≤ n := by
      simp only [fenceLength] at h
      omega
    have hstep : LexState.step (.raw n read) c (s ++ '"' :: (List.replicate n '#' ++ rest))
        = ([], .raw n (c :: read)) := by
      by_cases hc : c = '"'
      · -- A quote of the text is not the last one.
        subst hc
        simp only [LexState.step, not_isPrefixOf_of_fenceLength_le h, Bool.and_false, Bool.false_eq_true,
          ↓reduceIte]
      · simp only [LexState.step, hc, decide_false, Bool.false_and, Bool.false_eq_true, ↓reduceIte]
    rw [List.cons_append, tokensFrom_cons, hstep, List.nil_append, ih htail, List.reverse_cons, List.append_assoc]
    rfl

theorem fence?_replicate (n : Nat) : LexState.fence? (List.replicate n '#' ++ ['r']) = some n := by
  have hall : ∀ c ∈ List.replicate n '#', (c == '#') = true := fun c hc => by simp [List.eq_of_mem_replicate hc]
  rw [LexState.fence?, List.dropWhile_append_of_pos hall, List.takeWhile_append_of_pos hall]
  simp

/-- The hash signs of a raw literal are read like a word. -/
theorem tokensFrom_fence (m n : Nat) (rest : List Char) :
    tokensFrom (.word (List.replicate m '#' ++ ['r'])) (List.replicate n '#' ++ '"' :: rest)
      = tokensFrom (.raw (m + n) []) rest := by
  -- With each hash sign the word that has been read begins a literal with a longer fence.
  induction n generalizing m with
  | zero =>
    have hstep : LexState.step (.word (List.replicate m '#' ++ ['r'])) '"' rest = ([], .raw m []) := by
      simp only [LexState.step, fence?_replicate]
      rfl
    rw [List.replicate_zero, List.nil_append, tokensFrom_cons, hstep]
    rfl
  | succ n ih =>
    have hstep : LexState.step (.word (List.replicate m '#' ++ ['r'])) '#' (List.replicate n '#' ++ '"' :: rest)
        = ([], .word (List.replicate (m + 1) '#' ++ ['r'])) := by
      simp [LexState.step, fence?_replicate, List.replicate_succ]
    rw [List.replicate_succ, List.cons_append, tokensFrom_cons, hstep, List.nil_append, ih, Nat.add_right_comm,
      Nat.add_assoc]

/-- **Raw literals**: the raw literal of a text is read as that text, whatever stands behind it. -/
theorem lex_rawLiteralChars (s rest : List Char) :
    lex (rawLiteralChars s ++ rest) = .text (String.ofList s) :: lex rest := by
  have hfence := tokensFrom_fence 0 (fenceLength s) (s ++ '"' :: (List.replicate (fenceLength s) '#' ++ rest))
  have hread : lex (rawLiteralChars s ++ rest) = tokensFrom (.word ['r'])
      (List.replicate (fenceLength s) '#' ++ '"' :: (s ++ '"' :: (List.replicate (fenceLength s) '#' ++ rest))) := by
    simp only [rawLiteralChars, List.cons_append, List.append_assoc]
    rfl
  rw [hread]
  rw [List.replicate_zero, List.nil_append, Nat.zero_add] at hfence
  rw [hfence, tokensFrom_raw (Nat.le_refl _)]
  rfl

theorem lex_rawLiteral (s : String) : lex (rawLiteral s).toList = [.text s] := by
  have h := lex_rawLiteralChars s.toList []
  rw [List.append_nil, String.ofList_toList] at h
  rw [rawLiteral, String.toList_ofList]
  exact h

theorem complete_rawLiteral (s : String) : Complete (rawLiteral s).toList := by
  intro rest
  rw [lex_rawLiteral, rawLiteral, String.toList_ofList, lex_rawLiteralChars, String.ofList_toList]
  rfl

/-- Whether a character stands for itself between quotes. -/
def isPlain (c : Char) : Bool := 0x20 ≤ c.toNat && c.toNat < 0x7F && c ≠ '"' && c ≠ '\\'

theorem quotedChar_of_isPlain {c : Char} (h : isPlain c = true) : quotedChar c = [c] := by
  simp only [isPlain, Bool.and_eq_true, decide_eq_true_eq, ne_eq] at h
  obtain ⟨⟨hrange, hquote⟩, hslash⟩ := h
  -- The characters with escapes of their own are control characters, quotes and backslashes.
  have hne : ∀ d : Char, d.toNat < 0x20 → c ≠ d := by
    intro d hd heq
    subst heq
    omega
  simp only [quotedChar, hne '\x00' (by decide), hne '\t' (by decide), hne '\r' (by decide), hne '\n' (by decide),
    hquote, hslash, hrange.1, hrange.2, decide_true, Bool.and_self, ↓reduceIte]

theorem flatMap_quotedChar {s : List Char} (h : s.all isPlain = true) : s.flatMap quotedChar = s := by
  induction s with
  | nil => rfl
  | cons c s ih =>
    rw [List.all_cons, Bool.and_eq_true] at h
    rw [List.flatMap_cons, quotedChar_of_isPlain h.1, ih h.2]
    rfl

theorem tokensFrom_quoted {read s rest : List Char} (h : s.all isPlain = true) :
    tokensFrom (.quoted read) (s ++ '"' :: rest) = .text (String.ofList (read.reverse ++ s)) :: lex rest := by
  -- By induction on the text; what was read is kept in reverse.
  induction s generalizing read with
  | nil =>
    rw [List.append_nil]
    rfl
  | cons c s ih =>
    rw [List.all_cons, Bool.and_eq_true] at h
    have hplain := h.1
    simp only [isPlain, Bool.and_eq_true, decide_eq_true_eq, ne_eq] at hplain
    have hstep : LexState.step (.quoted read) c (s ++ '"' :: rest) = ([], .quoted (c :: read)) := by
      simp only [LexState.step, hplain.1.2, hplain.2, ↓reduceIte]
    rw [List.cons_append, tokensFrom_cons, hstep, List.nil_append, ih h.2, List.reverse_cons, List.append_assoc]
    rfl

/-- The quoted form of a plain text is read as that text. -/
theorem lex_quoted {s : String} (h : s.toList.all isPlain = true) (rest : List Char) :
    lex ((quoted s).toList ++ rest) = .text s :: lex rest := by
  have hread := @tokensFrom_quoted [] _ rest h
  rw [List.reverse_nil, List.nil_append, String.ofList_toList] at hread
  rw [quoted, String.toList_ofList, flatMap_quotedChar h, List.append_assoc, List.append_assoc]
  exact hread

theorem complete_quoted {s : String} (h : s.toList.all isPlain = true) : Complete (quoted s).toList := by
  intro rest
  have halone := lex_quoted h []
  rw [List.append_nil] at halone
  rw [lex_quoted h, halone]
  rfl

/-! ## §5 Lists, calls and lines -/

/-- Parts with commas between them are read one by one. -/
theorem lex_commaList {parts : List String} (h : ∀ p ∈ parts, Stoppable p.toList) :
    Stoppable (commaList parts).toList ∧
      lex (commaList parts).toList = [Token.mark ','].intercalate (parts.map fun p => lex p.toList) := by
  unfold commaList join
  rw [String.toList_ofList]
  induction parts with
  | nil => exact ⟨fun rest _ => rfl, rfl⟩
  | cons p parts ih =>
    have hp := h p List.mem_cons_self
    obtain ⟨hstop, hlex⟩ := ih fun q hq => h q (List.mem_cons_of_mem p hq)
    cases parts with
    | nil => exact ⟨by simpa using hp, by simp⟩
    | cons q parts =>
      -- A comma ends the first part, whatever follows.
      have hcomma : Complete (", ".toList) := fun rest => rfl
      have hhead : Complete (p.toList ++ ", ".toList) := hp.append_complete hcomma rfl
      have hheadLex : lex (p.toList ++ ", ".toList) = lex p.toList ++ [.mark ','] := hp _ rfl
      have hcode : ", ".toList.intercalate ((p :: q :: parts).map String.toList)
          = p.toList ++ ", ".toList ++ ", ".toList.intercalate ((q :: parts).map String.toList) :=
        List.intercalate_cons_cons
      have htokens : [Token.mark ','].intercalate ((p :: q :: parts).map fun p => lex p.toList)
          = lex p.toList ++ [.mark ','] ++ [Token.mark ','].intercalate ((q :: parts).map fun p => lex p.toList) :=
        List.intercalate_cons_cons
      rw [hcode, htokens]
      refine ⟨hhead.append_stoppable hstop, ?_⟩
      rw [hhead, hheadLex, hlex]

/-- A call is read as its function and its arguments between brackets. -/
theorem lex_callText {function : String} {arguments : List String} (hf : Stoppable function.toList)
    (hargs : ∀ a ∈ arguments, Stoppable a.toList) :
    Complete (callText function arguments).toList ∧
      lex (callText function arguments).toList = lex function.toList ++ .mark '(' ::
        ([Token.mark ','].intercalate (arguments.map fun a => lex a.toList) ++ [.mark ')']) := by
  obtain ⟨hstop, hlist⟩ := lex_commaList hargs
  have hopen : Complete ['('] := fun rest => rfl
  have hclose : Complete [')'] := fun rest => rfl
  -- A bracket ends the name in front of it, and another one ends the last argument.
  have hhead : Complete (function.toList ++ ['(']) := hf.append_complete hopen rfl
  have hheadLex : lex (function.toList ++ ['(']) = lex function.toList ++ [.mark '('] := hf _ rfl
  have htail : Complete ((commaList arguments).toList ++ [')']) := hstop.append_complete hclose rfl
  have htailLex : lex ((commaList arguments).toList ++ [')']) = lex (commaList arguments).toList ++ [.mark ')'] :=
    hstop _ rfl
  have hcode : (callText function arguments).toList
      = (function.toList ++ ['(']) ++ ((commaList arguments).toList ++ [')']) := by
    simp [callText]
  rw [hcode]
  refine ⟨hhead.append htail, ?_⟩
  rw [hhead, hheadLex, htailLex, hlist, List.append_assoc]
  rfl

theorem lex_blanks (n : Nat) (rest : List Char) : lex (List.replicate n ' ' ++ rest) = lex rest := by
  induction n with
  | zero => rfl
  | succ n ih =>
    rw [List.replicate_succ, List.cons_append, lex, tokensFrom_cons]
    exact ih

/-- A line is read as its code. -/
theorem lex_written {l : CodeLine} (h : Complete l.code.toList) (rest : List Char) :
    lex (l.written.toList ++ rest) = lex l.code.toList ++ lex rest := by
  unfold CodeLine.written
  by_cases hempty : l.code.isEmpty = true
  · -- An empty line is not indented.
    rw [if_pos hempty, String.isEmpty_iff.mp hempty]
    rfl
  · rw [if_neg hempty]
    simp only [String.toList_append, String.toList_ofList, List.append_assoc]
    rw [lex_blanks, h]
    rfl

/-- Lines are read one by one. -/
theorem lex_writtenAll {ls : List CodeLine} (h : ∀ l ∈ ls, Complete l.code.toList) :
    lex (CodeLine.writtenAll ls).toList = ls.flatMap fun l => lex l.code.toList := by
  unfold CodeLine.writtenAll
  rw [String.toList_join]
  induction ls with
  | nil => rfl
  | cons l ls ih =>
    rw [List.map_cons, List.flatMap_cons, lex_written (h l List.mem_cons_self),
      ih fun l' hl' => h l' (List.mem_cons_of_mem l hl'), List.flatMap_cons]

/-- A comment reaches to the end of its line. -/
theorem tokensFrom_comment {s rest : List Char} (h : '\n' ∉ s) :
    tokensFrom .comment (s ++ '\n' :: rest) = lex rest := by
  induction s with
  | nil => rfl
  | cons c s ih =>
    rw [List.mem_cons, not_or] at h
    have hstep : LexState.step .comment c (s ++ '\n' :: rest) = ([], .comment) := by
      simp only [LexState.step, Ne.symm h.1, ↓reduceIte]
    rw [List.cons_append, tokensFrom_cons, hstep, List.nil_append, ih h.2]

end Phrasebook
