import Phrasebook.Json.Syntax
import Phrasebook.Text.Quoted

/-!
# Reading quoted text

A quoted text can be read back: an escape stands for one character, and the first quote that is not escaped ends
the text.

- `QuoteState.read?` reads the text behind an opening quote, character by character.
- `quotedText?_quoted`: a quoted text is read back, whatever stands behind it.
-/

namespace Phrasebook.Text

open Phrasebook.JsonSyntax (hexDigit?)

/-! ## §1 Reading -/

/-- The character that a letter behind a backslash stands for. -/
def letterEscape? (c : Char) : Option Char :=
  if c = '0' then some '\x00'
  else if c = 't' then some '\t'
  else if c = 'r' then some '\r'
  else if c = 'n' then some '\n'
  else if c = '\\' || c = '"' || c = '\'' then some c
  else none

/-- The character of a code point. -/
def charOf? (n : Nat) : Option Char := if n.isValidChar then some (Char.ofNat n) else none

/-- Where reading between quotes has come to. -/
inductive QuoteState where
  /-- Between two characters. -/
  | plain
  /-- Behind a backslash. -/
  | escape
  /-- Behind a backslash and the letter of a code point. -/
  | brace
  /-- Among the digits of a code point. -/
  | digits (value : Nat)

namespace QuoteState

/-- Reads on to the closing quote; what has been read is given backwards. -/
def read? (state : QuoteState) (read : List Char) : List Char → Option (List Char × List Char)
  | [] => none
  | c :: cs => match state with
    | plain =>
      if c = '"' then some (read.reverse, cs)
      else if c = '\\' then read? escape read cs
      else read? plain (c :: read) cs
    | escape =>
      if c = 'u' then read? brace read cs
      else (letterEscape? c).bind fun e => read? plain (e :: read) cs
    | brace => if c = '{' then read? (digits 0) read cs else none
    | digits n =>
      if c = '}' then (charOf? n).bind fun e => read? plain (e :: read) cs
      else (hexDigit? c).bind fun d => read? (digits (16 * n + d)) read cs

end QuoteState

/-- The text between the quotes that stand here, and what stands behind them. -/
def quotedText? : List Char → Option (String × List Char)
  | '"' :: cs => (QuoteState.plain.read? [] cs).map fun r => (String.ofList r.1, r.2)
  | _ => none

/-! ## §2 Code points -/

theorem hexDigit?_digitChar {d : Nat} (h : d < 16) : hexDigit? (Nat.digitChar d) = some d := by
  revert d
  decide

/-- No digit closes the brace. -/
theorem digitChar_ne_brace {d : Nat} (h : d < 16) : Nat.digitChar d ≠ '}' := by
  revert d
  decide

theorem digitChar_ne_newline {d : Nat} (h : d < 16) : Nat.digitChar d ≠ '\n' := by
  revert d
  decide

/-- The last digit stands behind the digits of the sixteenth part. -/
theorem hexDigits_eq {n : Nat} (h : 16 ≤ n) : hexDigits n = hexDigits (n / 16) ++ [Nat.digitChar (n % 16)] :=
  Nat.toDigits_of_base_le (by decide) h

theorem newline_not_mem_hexDigits (n : Nat) : '\n' ∉ hexDigits n := by
  induction n using Nat.strongRecOn with
  | _ n ih =>
    by_cases hlt : n < 16
    · rw [hexDigits, Nat.toDigits_of_lt_base hlt, List.mem_singleton]
      exact (digitChar_ne_newline hlt).symm
    · rw [hexDigits_eq (by omega), List.mem_append, List.mem_singleton]
      rintro (hmem | hlast)
      · exact ih (n / 16) (by omega) hmem
      · exact digitChar_ne_newline (Nat.mod_lt n (by decide)) hlast.symm

namespace QuoteState

/-- A digit is appended to the number. -/
theorem read?_digitChar {d : Nat} (h : d < 16) (n : Nat) (read cs : List Char) :
    read? (digits n) read (Nat.digitChar d :: cs) = read? (digits (16 * n + d)) read cs := by
  rw [read?, if_neg (digitChar_ne_brace h), hexDigit?_digitChar h, Option.bind_some]

/-- The digits of a number are read as the number. -/
theorem read?_hexDigits (n : Nat) (read cs : List Char) :
    read? (digits 0) read (hexDigits n ++ cs) = read? (digits n) read cs := by
  induction n using Nat.strongRecOn generalizing cs with
  | _ n ih =>
    by_cases hlt : n < 16
    · rw [hexDigits, Nat.toDigits_of_lt_base hlt, List.singleton_append, read?_digitChar hlt]
      congr 2
      omega
    · have hmod : n % 16 < 16 := Nat.mod_lt n (by decide)
      have hvalue : 16 * (n / 16) + n % 16 = n := Nat.div_add_mod n 16
      rw [hexDigits_eq (by omega), List.append_assoc, List.singleton_append, ih (n / 16) (by omega),
        read?_digitChar hmod, hvalue]

end QuoteState

/-! ## §3 Quoted characters -/

/-- A character is quoted by a letter, by itself or by its code point. -/
theorem quotedChar_cases (c : Char) :
    (∃ e, e ≠ 'u' ∧ e ≠ '\n' ∧ letterEscape? e = some c ∧ quotedChar c = ['\\', e]) ∨
      (c ≠ '"' ∧ c ≠ '\\' ∧ c ≠ '\n' ∧ quotedChar c = [c]) ∨ quotedChar c = codePointEscape c := by
  unfold quotedChar
  split
  · subst c
    exact .inl ⟨'0', by decide⟩
  split
  · subst c
    exact .inl ⟨'t', by decide⟩
  split
  · subst c
    exact .inl ⟨'r', by decide⟩
  split
  · subst c
    exact .inl ⟨'n', by decide⟩
  split
  · subst c
    exact .inl ⟨'\\', by decide⟩
  split
  · subst c
    exact .inl ⟨'"', by decide⟩
  -- What is left has no letter of its own: it is written as it is, or by its code point.
  rename_i hnewline hbackslash hquote
  split
  · exact .inr (.inl ⟨hquote, hbackslash, hnewline, rfl⟩)
  · split
    · exact .inr (.inr rfl)
    · exact .inr (.inl ⟨hquote, hbackslash, hnewline, rfl⟩)

namespace QuoteState

/-- A quoted character is read as the character. -/
theorem read?_quotedChar (c : Char) (read cs : List Char) :
    read? plain read (quotedChar c ++ cs) = read? plain (c :: read) cs := by
  rcases quotedChar_cases c with ⟨e, hletter, -, he, hcase⟩ | ⟨hquote, hbackslash, -, hcase⟩ | hcase
  · have hescape : read? plain read (['\\', e] ++ cs) = read? escape read (e :: cs) := rfl
    rw [hcase, hescape, read?, if_neg hletter, he, Option.bind_some]
  · rw [hcase, List.singleton_append, read?, if_neg hquote, if_neg hbackslash]
  · -- Behind the letter and the brace stand the digits of the code point, which is a valid one.
    have hvalid : c.toNat.isValidChar := c.valid
    have hchar : charOf? c.toNat = some c := by
      rw [charOf?, if_pos hvalid, Char.ofNat_toNat]
    have hopen : read? plain read (codePointEscape c ++ cs)
        = read? (digits 0) read (hexDigits c.toNat ++ '}' :: cs) := by
      simp only [codePointEscape, List.append_assoc]
      rfl
    rw [hcase, hopen, read?_hexDigits, read?, if_pos rfl, hchar, Option.bind_some]

/-- Quoted characters are read up to the quote behind them. -/
theorem read?_flatMap_quotedChar (s read rest : List Char) :
    read? plain read (s.flatMap quotedChar ++ '"' :: rest) = some (read.reverse ++ s, rest) := by
  induction s generalizing read with
  | nil => rw [List.flatMap_nil, List.nil_append, read?, if_pos rfl, List.append_nil]
  | cons c s ih =>
    rw [List.flatMap_cons, List.append_assoc, read?_quotedChar, ih, List.reverse_cons, List.append_assoc,
      List.singleton_append]

end QuoteState

theorem newline_not_mem_quotedChar (c : Char) : '\n' ∉ quotedChar c := by
  rcases quotedChar_cases c with ⟨e, -, hnewline, -, hcase⟩ | ⟨-, -, hnewline, hcase⟩ | hcase
  · simpa [hcase] using hnewline.symm
  · simpa [hcase] using hnewline.symm
  · simpa [hcase, codePointEscape] using newline_not_mem_hexDigits c.toNat

/-! ## §4 Quoted texts -/

theorem quoted_toList (s : String) : (quoted s).toList = '"' :: (s.toList.flatMap quotedChar ++ ['"']) := by
  rw [quoted, String.toList_ofList]
  rfl

/-- **Quoted texts** are read back, whatever stands behind them. -/
theorem quotedText?_quoted (s : String) (rest : List Char) :
    quotedText? ((quoted s).toList ++ rest) = some (s, rest) := by
  have hread := QuoteState.read?_flatMap_quotedChar s.toList [] rest
  rw [quoted_toList, List.cons_append, List.append_assoc, List.singleton_append, quotedText?, hread, Option.map_some,
    List.reverse_nil, List.nil_append, String.ofList_toList]

/-- A quoted text stands on one line. -/
theorem newline_not_mem_quoted (s : String) : '\n' ∉ (quoted s).toList := by
  rw [quoted_toList, List.mem_cons, List.mem_append, List.mem_flatMap]
  rintro (hquote | ⟨c, -, hc⟩ | hquote)
  · exact absurd hquote (by decide)
  · exact newline_not_mem_quotedChar c hc
  · exact absurd hquote (by decide)

end Phrasebook.Text
