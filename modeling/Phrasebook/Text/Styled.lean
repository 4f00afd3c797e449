import Phrasebook.Text.Basic

/-!
# Styled text

Lines whose parts may have a style. On a terminal a style is written as an escape sequence in front of a part and
another one behind it; elsewhere it is left out.
-/

namespace Phrasebook

/-- How a part of a line is shown. -/
inductive Style where
  | plain
  | bold
  | boldRed
  | boldYellow
  | boldCyan
  | dimmedCyan
  | red
  | green
  | yellow
  | blue
  deriving DecidableEq, Repr

/-- The parameters of the escape sequence of a style; the plain one has none. -/
def Style.parameters? : Style → Option String
  | plain => none
  | bold => some "1"
  | boldRed => some "1;31"
  | boldYellow => some "1;33"
  | boldCyan => some "1;36"
  | dimmedCyan => some "2;36"
  | red => some "31"
  | green => some "32"
  | yellow => some "33"
  | blue => some "34"

/-- A part of a line in one style. -/
structure Span where
  style : Style
  text : String
  deriving DecidableEq, Repr

/-- A part as it is written, with or without its style. -/
def Span.written (coloured : Bool) (s : Span) : String :=
  match s.style.parameters? with
  | some parameters =>
    if coloured then "\x1b[" ++ parameters ++ "m" ++ s.text ++ "\x1b[0m" else s.text
  | none => s.text

/-- The parts of a line. -/
abbrev StyledLine := List Span

/-- A part without style. -/
def plainText (s : String) : Span := ⟨.plain, s⟩

/-- A line as it is written, with the line feed that ends it. -/
def StyledLine.written (coloured : Bool) (l : StyledLine) : String :=
  String.join (l.map (Span.written coloured)) ++ "\n"

def writtenLines (coloured : Bool) (ls : List StyledLine) : String :=
  String.join (ls.map (StyledLine.written coloured))

end Phrasebook
