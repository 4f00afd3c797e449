import Phrasebook.Parameter.Type

/-!
# Parameter lists

The parameters of a phrase, in order and with distinct names. A list is written `name:type,name:type`; a blank text
is the empty list.
-/

namespace Phrasebook

open Phrasebook.Text

/-! ## Lists -/

/-- A named parameter. -/
structure Parameter where
  /-- The name by which templates refer to it. -/
  name : String
  type : ParamType
  deriving DecidableEq, Repr

/-- The parameters of a phrase, in order. -/
abbrev ParameterList := List Parameter

/-- Why a text is no parameter list. -/
inductive ParameterListError where
  /-- A part has no colon. -/
  | missingSeparator (part : String)
  /-- A part has no name before its colon. -/
  | emptyName (part : String)
  /-- A name is used a second time. -/
  | duplicateName (name : String)
  /-- The brackets of the text do not match. -/
  | unbalanced (text : String)
  /-- What stands behind the colon is no type. -/
  | invalidType (name : String) (cause : TypeError)
  deriving DecidableEq, Repr

def ParameterListError.message : ParameterListError → String
  | .missingSeparator part => "'" ++ part ++ "' is not a 'name:type' pair"
  | .emptyName part => "parameter without a name in '" ++ part ++ "'"
  | .duplicateName name => "parameter '" ++ name ++ "' is defined more than once"
  | .unbalanced text => "unbalanced brackets in '" ++ text ++ "'"
  | .invalidType name cause => "parameter '" ++ name ++ "': " ++ cause.message

namespace ParameterList

def names (ps : ParameterList) : List String := ps.map (·.name)

/-- The place of a name in the list. -/
def position? (ps : ParameterList) (name : String) : Option Nat :=
  ps.findIdx? fun p => p.name == name

def find? (ps : ParameterList) (name : String) : Option Parameter :=
  List.find? (fun p => p.name == name) ps

/-! ## Reading -/

/-- Reads one part, `seen` being the names of the parts before it. -/
def parsePart (seen : List String) (part : List Char) : Except ParameterListError Parameter :=
  match cut? ':' part with
  | none => .error (.missingSeparator (String.ofList part))
  | some (before, behind) =>
    let name := String.ofList (trim before)
    if name.isEmpty then .error (.emptyName (String.ofList part))
    else if seen.contains name then .error (.duplicateName name)
    else match ParamType.parseChars behind with
      | .error e => .error (.invalidType name e)
      | .ok type => .ok ⟨name, type⟩

/-- Reads the parts of a list, `seen` being the names of the parts before them. -/
def parseParts (seen : List String) : List (List Char) → Except ParameterListError ParameterList
  | [] => .ok []
  | part :: parts => match parsePart seen part with
    | .error e => .error e
    | .ok p => (parseParts (seen ++ [p.name]) parts).map (p :: ·)

/-- Reads a parameter list. -/
def parseChars (s : List Char) : Except ParameterListError ParameterList :=
  if s.all isBlank then .ok []
  else match splitTopLevel s with
    | none => .error (.unbalanced (String.ofList s))
    | some parts => parseParts [] parts

/-- Reads a parameter list. -/
def parse (s : String) : Except ParameterListError ParameterList := parseChars s.toList

/-! ## Writing -/

/-- The characters of one parameter in normal form. -/
def partChars (p : Parameter) : List Char := p.name.toList ++ ':' :: p.type.displayChars

/-- The characters of a parameter list in normal form; they are none for the empty list. -/
def listChars (ps : ParameterList) : List Char := List.intercalate [','] (ps.map partChars)

/-- A parameter list as it is shown. -/
def display (ps : ParameterList) : String :=
  if ps.isEmpty then "(no parameters)" else String.ofList (listChars ps)

/-- One parameter as it is shown. -/
def displayPart (p : Parameter) : String := String.ofList (partChars p)

end ParameterList

end Phrasebook
