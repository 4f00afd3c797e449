import Phrasebook.Name.Identifier

/-!
# Templates

A template is a text with placeholders: an identifier between braces. Everything else, other uses of braces
included, is literal text.

- `Template.segments` cuts the text into literals and placeholders; `Segment.written` writes one back.
- `Template.render` puts values in the place of the placeholders and writes those without a value back.
-/

namespace Phrasebook

open Phrasebook.Name

/-- A piece of a template. -/
inductive Segment where
  /-- Text that stands for itself. -/
  | literal (text : String)
  /-- The name of a value. -/
  | placeholder (name : String)
  deriving DecidableEq, Repr

namespace Segment

def placeholderChars (name : List Char) : List Char := '{' :: (name ++ ['}'])

/-- The characters a piece is written with in a template. -/
def chars : Segment → List Char
  | .literal text => text.toList
  | .placeholder name => placeholderChars name.toList

/-- The text a piece is written with in a template. -/
def written (s : Segment) : String := String.ofList s.chars

end Segment

/-! ## Reading -/

def isIdentifierStart (c : Char) : Bool := isLetter c || c = '_'

/-- A character an identifier may go on with. -/
def isIdentifierChar (c : Char) : Bool := isAlphanumeric c || c = '_'

def isIdentifier : List Char → Bool
  | [] => false
  | c :: cs => isIdentifierStart c && cs.all isIdentifierChar

/-- The name of the placeholder that a text behind an opening brace completes. -/
def placeholderName? (behind : List Char) : Option (List Char) :=
  let name := behind.takeWhile isIdentifierChar
  match behind.dropWhile isIdentifierChar with
  | '}' :: _ => if isIdentifier name then some name else none
  | _ => none

/-- The pieces with the collected literal text, given backwards, in front. -/
def flush (literal : List Char) (rest : List Segment) : List Segment :=
  if literal.isEmpty then rest else .literal (String.ofList literal.reverse) :: rest

/-- The pieces of a text behind `literal`, given backwards, with `skip` characters of a placeholder to pass over. -/
def segmentsFrom : Nat → List Char → List Char → List Segment
  | _, literal, [] => flush literal []
  | skip + 1, literal, _ :: cs => segmentsFrom skip literal cs
  | 0, literal, c :: cs =>
    if c = '{' then
      match placeholderName? cs with
      | some name =>
        flush literal (.placeholder (String.ofList name) :: segmentsFrom (name.length + 1) [] cs)
      | none => segmentsFrom 0 (c :: literal) cs
    else segmentsFrom 0 (c :: literal) cs

/-- A template, kept as its text. -/
structure Template where
  /-- The text. -/
  raw : String
  deriving DecidableEq, Repr, Inhabited

namespace Template

/-- The literals and placeholders of a template. -/
def segments (t : Template) : List Segment := segmentsFrom 0 [] t.raw.toList

/-- The names of the placeholders, each once, in the order of their first appearance. -/
def placeholders (t : Template) : List String :=
  t.segments.foldl (fun names s => match s with
    | .literal _ => names
    | .placeholder name => if names.contains name then names else names ++ [name]) []

/-! ## Rendering -/

/-- The text a piece is rendered to; a placeholder without a value is written back. -/
def renderSegment (resolve : String → Option String) : Segment → String
  | .literal text => text
  | .placeholder name => (resolve name).getD (Segment.placeholder name).written

/-- The template with the values of its placeholders. -/
def render (t : Template) (resolve : String → Option String) : String :=
  String.join (t.segments.map (renderSegment resolve))

end Template

end Phrasebook
