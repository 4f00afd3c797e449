/-!
# Text operations on lists of characters

Operations that cut, join and replace text. Text is a `String` at every interface of the library; the
operations themselves walk a list of characters, so each is defined by recursion on the text.

- `splitOn` and `cut?` separate a text at a character.
- `dropStart?` and `dropEnd?` remove a given beginning or end.
- `replaceAll` substitutes every occurrence of a word, from the left and without overlap.
- `trim` removes blanks from both ends; a blank is a character with the White_Space property.
-/

namespace Phrasebook.Text

/-! ## Cutting -/

/-- The parts of a text between the characters that satisfy `p`; there is always at least one part. -/
def splitBy (p : Char → Bool) : List Char → List (List Char)
  | [] => [[]]
  | c :: cs =>
    if p c then [] :: splitBy p cs
    else match splitBy p cs with
      | [] => [[c]]
      | part :: parts => (c :: part) :: parts

/-- The parts of a text between the occurrences of one character. -/
def splitOn (sep : Char) (s : List Char) : List (List Char) := splitBy (· == sep) s

/-- The text before and the text after the first occurrence of a character. -/
def cut? (sep : Char) : List Char → Option (List Char × List Char)
  | [] => none
  | c :: cs => if c = sep then some ([], cs) else (cut? sep cs).map fun p => (c :: p.1, p.2)

/-- The text before and the text after the last occurrence of a character. -/
def cutLast? (sep : Char) (s : List Char) : Option (List Char × List Char) :=
  (cut? sep s.reverse).map fun p => (p.2.reverse, p.1.reverse)

/-- What follows a given beginning, when the text has it. -/
def dropStart? : List Char → List Char → Option (List Char)
  | [], s => some s
  | _ :: _, [] => none
  | p :: ps, c :: cs => if p = c then dropStart? ps cs else none

/-- What precedes a given end, when the text has it. -/
def dropEnd? (word s : List Char) : Option (List Char) :=
  (dropStart? word.reverse s.reverse).map List.reverse

/-- Whether a word occurs somewhere in a text. -/
def contains (word : List Char) : List Char → Bool
  | [] => word.isEmpty
  | c :: cs => word.isPrefixOf (c :: cs) || contains word cs

/-! ## Replacing -/

/-- Replacement with `skip` characters of an occurrence still to be passed over. -/
def replaceFrom (word new : List Char) : Nat → List Char → List Char
  | _, [] => []
  | skip + 1, _ :: cs => replaceFrom word new skip cs
  | 0, c :: cs =>
    if word.isPrefixOf (c :: cs) then new ++ replaceFrom word new (word.length - 1) cs
    else c :: replaceFrom word new 0 cs

/-- The text with every occurrence of a non-empty word replaced, from the left and without overlap. -/
def replaceAll (word new s : List Char) : List Char := replaceFrom word new 0 s

def replaceChar (old new : Char) (s : List Char) : List Char :=
  s.map fun c => if c = old then new else c

/-! ## Joining -/

/-- The parts of a text, in order, with a separator between neighbours. -/
def join (sep : String) (parts : List String) : String :=
  String.ofList (List.intercalate sep.toList (parts.map String.toList))

/-! ## Ranges of code points -/

/-- Sets of characters, given by the first and last code point of each range. -/
abbrev Ranges := List (Nat × Nat)

/-- Whether a code point lies in one of the ranges. -/
def Ranges.covers (rs : Ranges) (n : Nat) : Bool :=
  rs.any fun r => r.1 ≤ n && n ≤ r.2

/-! ## Laws -/

theorem splitBy_eq_splitOnP (p : Char → Bool) (s : List Char) : splitBy p s = s.splitOnP p := by
  induction s with
  | nil => rfl
  | cons c s ih =>
    rw [splitBy, List.splitOnP_cons_eq_if_modifyHead, ih]
    split
    · rfl
    · -- There is always a first part for the character to go into.
      cases hparts : s.splitOnP p with
      | nil => exact absurd hparts (List.splitOnP_ne_nil p s)
      | cons part parts => rfl

theorem splitOn_eq (sep : Char) (s : List Char) : splitOn sep s = s.splitOn sep :=
  splitBy_eq_splitOnP _ s

theorem splitOn_append_cons {sep : Char} {s : List Char} (h : sep ∉ s) (rest : List Char) :
    splitOn sep (s ++ sep :: rest) = s :: splitOn sep rest := by
  rw [splitOn_eq, splitOn_eq, List.splitOn_append_cons_self_of_not_mem h]

theorem cut?_append {sep : Char} {before : List Char} (h : sep ∉ before) (behind : List Char) :
    cut? sep (before ++ sep :: behind) = some (before, behind) := by
  induction before with
  | nil => simp [cut?]
  | cons c before ih =>
    simp only [List.mem_cons, not_or] at h
    rw [List.cons_append, cut?, if_neg (Ne.symm h.1), ih h.2]
    rfl

theorem of_cut? {sep : Char} {s before behind : List Char} (h : cut? sep s = some (before, behind)) :
    sep ∉ before ∧ s = before ++ sep :: behind := by
  induction s generalizing before with
  | nil => cases h
  | cons c s ih =>
    rw [cut?] at h
    split at h
    · rename_i hc
      obtain ⟨rfl, rfl⟩ := Prod.mk.inj (Option.some.inj h)
      exact ⟨List.not_mem_nil, by rw [hc]; rfl⟩
    · rename_i hc
      obtain ⟨⟨first, rest⟩, hrest, heq⟩ := Option.map_eq_some_iff.mp h
      obtain ⟨rfl, rfl⟩ := Prod.mk.inj heq
      obtain ⟨hnot, rfl⟩ := ih hrest
      exact ⟨by simp [Ne.symm hc, hnot], rfl⟩

theorem dropStart?_append (p s : List Char) : dropStart? p (p ++ s) = some s := by
  induction p with
  | nil => rfl
  | cons c p ih => simp [dropStart?, ih]

theorem eq_append_of_dropStart? {p s r : List Char} (h : dropStart? p s = some r) : s = p ++ r := by
  induction p generalizing s with
  | nil => simpa [dropStart?] using h
  | cons c p ih =>
    cases s with
    | nil => simp [dropStart?] at h
    | cons d s =>
      by_cases hc : c = d
      · simp only [dropStart?, hc, ↓reduceIte] at h
        simp [hc, ih h]
      · simp [dropStart?, hc] at h

theorem dropEnd?_append (word s : List Char) : dropEnd? word (s ++ word) = some s := by
  rw [dropEnd?, List.reverse_append, dropStart?_append, Option.map_some, List.reverse_reverse]

theorem eq_append_of_dropEnd? {word s rest : List Char} (h : dropEnd? word s = some rest) : s = rest ++ word := by
  obtain ⟨r, hr, rfl⟩ := Option.map_eq_some_iff.mp h
  rw [← List.reverse_inj, eq_append_of_dropStart? hr, List.reverse_append, List.reverse_reverse]

theorem dropEnd?_eq_none_iff {c : Char} {s : List Char} : dropEnd? [c] s = none ↔ s.getLast? ≠ some c := by
  constructor
  · intro h hlast
    obtain ⟨front, rfl⟩ := List.getLast?_eq_some_iff.mp hlast
    rw [dropEnd?_append] at h
    cases h
  · intro h
    rw [dropEnd?, Option.map_eq_none_iff]
    rw [← List.head?_reverse] at h
    cases hs : s.reverse with
    | nil => rfl
    | cons d ds =>
      have hne : c ≠ d := by
        rintro rfl
        exact h (by rw [hs]; rfl)
      simp [dropStart?, hne]

/-! ## Blanks -/

/-- The characters with the White_Space property. -/
def isBlank (c : Char) : Bool :=
  let n := c.toNat
  (9 ≤ n && n ≤ 13) || n == 0x20 || n == 0x85 || n == 0xA0 || n == 0x1680
    || (0x2000 ≤ n && n ≤ 0x200A) || n == 0x2028 || n == 0x2029 || n == 0x202F
    || n == 0x205F || n == 0x3000

/-- The text without the blanks it starts with. -/
def trimStart (s : List Char) : List Char := s.dropWhile isBlank

/-- The text without the blanks it ends with. -/
def trimEnd (s : List Char) : List Char := (s.reverse.dropWhile isBlank).reverse

/-- The text without the blanks at its two ends. -/
def trim (s : List Char) : List Char := trimEnd (trimStart s)

/-- The text of a string without the blanks at its two ends. -/
def trimmed (s : String) : String := String.ofList (trim s.toList)

/-- Whether a string holds nothing but blanks. -/
def allBlank (s : String) : Bool := s.toList.all isBlank

end Phrasebook.Text
