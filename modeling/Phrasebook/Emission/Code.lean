import Phrasebook.Parameter.Type

/-!
# Code of the generated module

A generated module is a list of lines. A line is indented by four blanks for each level; an empty line is not.

A raw literal stands between two quotes with equally many hash signs around them, and means the characters between
the quotes. It ends at the first quote that has enough hash signs behind it, so there must be more of them than
behind any quote of the text.

The types say how the module passes, keeps and reads the values of a parameter type. A value of a named type, or of
any type, stays a value of the data format.
-/

namespace Phrasebook

open Phrasebook.Text

/-! ## Lines -/

/-- A line of code. -/
structure CodeLine where
  level : Nat
  code : String
  deriving DecidableEq, Repr

namespace CodeLine

/-- The line without code. -/
def blank : CodeLine := ⟨0, ""⟩

/-- A line as it is written, with the line feed that ends it. -/
def written (l : CodeLine) : String :=
  if l.code.isEmpty then "\n" else String.ofList (List.replicate (4 * l.level) ' ') ++ l.code ++ "\n"

def writtenAll (ls : List CodeLine) : String := String.join (ls.map written)

end CodeLine

/-- Code of several parts with commas between them. -/
def commaList (parts : List String) : String := join ", " parts

def callText (function : String) (arguments : List String) : String :=
  function ++ "(" ++ commaList arguments ++ ")"

/-! ## Literals -/

/-- The least number of hash signs such that no quote of a text has as many behind it. -/
def fenceLength : List Char → Nat
  | [] => 0
  | c :: cs => max (if c = '"' then (cs.takeWhile (· == '#')).length + 1 else 0) (fenceLength cs)

def rawLiteralChars (s : List Char) : List Char :=
  let fence := List.replicate (fenceLength s) '#'
  'r' :: (fence ++ '"' :: (s ++ '"' :: fence))

def rawLiteral (s : String) : String := String.ofList (rawLiteralChars s.toList)

/-! ## Types -/

namespace ParamType

/-- What a type asks for in the generated module; a named type asks for nothing in particular. -/
def builtinOf : ParamType → Builtin
  | .builtin kind _ => kind
  | .named .. => .any

/-- Whether values of a type stay values of the data format. -/
def isValue (t : ParamType) : Bool := t.builtinOf = .any

/-- The type of an argument whose value is not null. -/
def borrowedBase (t : ParamType) : String :=
  match t.builtinOf with
  | .integer => "i64"
  | .float => "f64"
  | .boolean => "bool"
  | .text => "&str"
  | .any => "&serde_json::Value"

def borrowedType (t : ParamType) : String :=
  if t.nullable then "Option<" ++ t.borrowedBase ++ ">" else t.borrowedBase

def ownedType (t : ParamType) : String :=
  match t.builtinOf with
  | .integer => "i64"
  | .float => "f64"
  | .boolean => "bool"
  | .text => "String"
  | .any => "serde_json::Value"

def reader (t : ParamType) : String := t.builtinOf.display

end ParamType

end Phrasebook
