import Phrasebook.Name.Identifier
import Phrasebook.Text.Basic

/-!
# Contracts

A contract names a set of phrases by methods. A method says which of its parameters is the locale and which are
put into the phrase; the key of the phrase is given or made from the name of the method.
-/

namespace Phrasebook

open Phrasebook.Text Phrasebook.Name

/-- How a parameter of a method takes part. -/
inductive Role where
  | locale
  /-- It is put into the phrase. -/
  | argument
  /-- It is accepted and not passed on. -/
  | ignored
  deriving DecidableEq, Repr, Inhabited

/-- A parameter of a method. -/
structure MethodParameter where
  name : String
  type : String
  /-- How the parameter takes part. -/
  role : Role
  deriving DecidableEq, Repr

/-- A method of a contract. -/
structure Method where
  name : String
  key : Option String
  /-- The parameters, in the order of a call. -/
  parameters : List MethodParameter
  deriving DecidableEq, Repr

/-- A contract. -/
structure Contract where
  name : String
  file : Option String
  methods : List Method
  deriving DecidableEq, Repr

/-- A text that may be given: a blank one is not. -/
def given? (s : Option String) : Option String :=
  match s with
  | some s => if (trimmed s).isEmpty then none else some (trimmed s)
  | none => none

def Method.keyName (m : Method) : String := (given? m.key).getD (splitHumps m.name '.')

namespace Contract

/-- The characters of a name behind its last dot. -/
def simpleChars (name : List Char) : List Char := ((cutLast? '.' name).map (·.2)).getD name

/-- The name behind its last dot. -/
def simpleName (c : Contract) : String := String.ofList (simpleChars c.name.toList)

/-- A name without the package it is in, when it is in that package. -/
def withoutPackage (package name : List Char) : List Char :=
  if package.isEmpty then name
  else ((dropStart? package name).bind (dropStart? ['.'])).getD name

/-- The file that the phrases of a name are in: the last part of the name is split at its humps. -/
def fileChars (package name : List Char) : List Char :=
  let simple := simpleChars name
  (dropEnd? simple (withoutPackage package name)).getD [] ++ splitHumpsChars '_' simple

def fileName (c : Contract) (package : String) : String :=
  (given? c.file).getD (String.ofList (fileChars package.toList c.name.toList))

end Contract

end Phrasebook
