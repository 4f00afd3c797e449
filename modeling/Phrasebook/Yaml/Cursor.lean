import Phrasebook.Yaml.Character

/-!
# Places in a YAML text

A cursor is what is left of a text together with the place where it starts: the number of characters before it,
the line and the column.
-/

namespace Phrasebook.Yaml

/-- A place in a text and the text from there on. -/
structure Cursor where
  /-- The characters that are left. -/
  rest : List Char
  /-- The number of characters before the place. -/
  index : Nat
  /-- The number of lines before the place. -/
  line : Nat
  /-- The number of characters before the place in its line. -/
  column : Nat
  deriving DecidableEq, Repr

namespace Cursor

def start (s : List Char) : Cursor := ⟨s, 0, 0, 0⟩

/-- The place a number of characters further on in the same line. -/
def skip (c : Cursor) (n : Nat) : Cursor := ⟨c.rest.drop n, c.index + n, c.line, c.column + n⟩

/-- The characters up to the first one that fails a predicate. -/
def word (c : Cursor) (p : Char → Bool) : List Char := c.rest.takeWhile p

/-- The place behind the characters that satisfy a predicate, in the same line. -/
def skipWhile (c : Cursor) (p : Char → Bool) : Cursor := c.skip (c.word p).length

/-- The place behind the end of a line, when one stands here. -/
def skipBreak (c : Cursor) : Cursor :=
  let n := (breakText c.rest).2
  if n = 0 then c else ⟨c.rest.drop n, c.index + n, c.line + 1, 0⟩

/-- The text that the end of a line here stands for. -/
def breakHere (c : Cursor) : List Char := (breakText c.rest).1

/-- Whether the first character left is a given one. -/
def at? (c : Cursor) (ch : Char) : Bool := startsWhere (· == ch) c.rest

/-- Whether nothing is left. -/
def atEnd (c : Cursor) : Bool := c.rest.isEmpty

/-- The place behind a comment, when one starts here. -/
def skipComment (c : Cursor) : Cursor :=
  if c.at? '#' then c.skipWhile fun ch => !isBreak ch else c

/-- The place behind the blanks and a comment in this line. -/
def skipTrailer (c : Cursor) : Cursor := (c.skipWhile isGap).skipComment

end Cursor

end Phrasebook.Yaml
