import Phrasebook.Emission.Code
import Phrasebook.Basic
import Phrasebook.Name.Identifier
import Phrasebook.Parameter.List
import Phrasebook.Template
import Phrasebook.Text.Quoted

/-!
# Expressions of the generated module

The code that makes the text of a template: a list of fixed texts and arguments, written as a string when there is
no argument and as a format otherwise. In the pattern of a format a brace is written twice, and a pair of braces
stands for the next argument.
-/

namespace Phrasebook

open Phrasebook.Name Phrasebook.Text

/-! ## Arguments -/

/-- What a format asks for. -/
inductive FormatArgument where
  | parameter (ident : String) (type : ParamType)
  /-- A property, with the text that stands in for one that is not set. -/
  | property (field : String) (type : ParamType) (placeholder : String)
  deriving DecidableEq, Repr

namespace FormatArgument

def shown (ident : String) (t : ParamType) : String :=
  match t.nullable, t.isValue with
  | false, false => ident
  | false, true => callText "super::show_value" [ident]
  | true, false => callText "super::show_opt" [ident]
  | true, true => callText "super::show_opt_value" [ident]

def propertyHelper (t : ParamType) : String :=
  if t.isValue then "super::show_property_value" else "super::show_property"

def code : FormatArgument → String
  | parameter ident t => shown ident t
  | property field t placeholder => callText (propertyHelper t) ["&props." ++ field, quoted placeholder]

end FormatArgument

/-! ## Expressions -/

/-- A part of a text. -/
inductive TextPart where
  | fixed (text : String)
  | argument (value : FormatArgument)
  deriving DecidableEq, Repr

/-- The code that makes a text, as the parts of the text. -/
abbrev TextExpression := List TextPart

namespace TextExpression

/-- The part of a piece of a template: a placeholder is a parameter, or else a property, or else itself. -/
def partOf (schema : ParameterList) (properties : KeyMap ParamType) : Segment → TextPart
  | .literal text => .fixed text
  | .placeholder name => match schema.find? name with
    | some p => .argument (.parameter (ofParameter name) p.type)
    | none => match properties.get? name with
      | some t => .argument (.property (ofProperty name) t (Segment.placeholder name).written)
      | none => .fixed (Segment.placeholder name).written

def ofTemplate (schema : ParameterList) (properties : KeyMap ParamType) (t : Template) : TextExpression :=
  t.segments.map (partOf schema properties)

def ofKey (key : String) : TextExpression := [.fixed key]

/-- The arguments of an expression, in order. -/
def arguments (e : TextExpression) : List FormatArgument :=
  e.filterMap fun p => match p with
    | .fixed _ => none
    | .argument a => some a

/-- A fixed text in a pattern: each brace is written twice. -/
def patternChars (s : List Char) : List Char :=
  s.flatMap fun c => if c = '{' || c = '}' then [c, c] else [c]

def partPattern : TextPart → List Char
  | .fixed text => patternChars text.toList
  | .argument _ => ['{', '}']

def pattern (e : TextExpression) : String := String.ofList (e.flatMap partPattern)

def fixedText (e : TextExpression) : String :=
  String.join (e.map fun p => match p with
    | .fixed text => text
    | .argument _ => "")

def code (e : TextExpression) : String :=
  if e.arguments.isEmpty then callText "String::from" [rawLiteral e.fixedText]
  else callText "format!" (rawLiteral e.pattern :: e.arguments.map FormatArgument.code)

end TextExpression

end Phrasebook
