import Phrasebook.Text.Basic

/-!
# Paths

Paths as texts, with slashes between their segments. An empty segment and a segment `.` behind the first one mean
nothing; a path that starts with a slash is absolute.
-/

namespace Phrasebook.Path

open Phrasebook.Text

/-! ## Segments -/

/-- The segments of a path; the first one of an absolute path is empty. -/
def segments (path : String) : List String := (splitOn '/' path.toList).map String.ofList

/-- A segment that means nothing where it stands behind another. -/
def isVoid (segment : String) : Bool := segment == "" || segment == "."

/-- Whether a path starts at the root. -/
def isAbsolute (path : String) : Bool := path.toList.head? == some '/'

/-- The list without the segments at its end that mean nothing. -/
def dropVoidEnd (segments : List String) : List String := (segments.reverse.dropWhile isVoid).reverse

def ofSegments : List String → String
  | [""] => "/"
  | segments => join "/" segments

/-- The segments of a path without those at its end that mean nothing. -/
def trimmedSegments (path : String) : List String :=
  match segments path with
  | [] => []
  | first :: rest => first :: dropVoidEnd rest

/-- A path without the segments at its end that mean nothing. -/
def withoutVoidEnd (path : String) : String := ofSegments (trimmedSegments path)

/-! ## Parts -/

/-- The name a path ends with, unless it ends with `..` or has no name. -/
def fileName? (path : String) : Option String :=
  match (trimmedSegments path).getLast? with
  | some name => if isVoid name || name == ".." then none else some name
  | none => none

/-- The name in front of the last dot and the text behind it; a dot at the start of a name counts as a letter. -/
def splitName (name : String) : String × Option String :=
  match cutLast? '.' name.toList with
  | some (before, behind) =>
    if before.isEmpty then (name, none) else (String.ofList before, some (String.ofList behind))
  | none => (name, none)

/-- The text behind the last dot of the name a path ends with. -/
def extension? (path : String) : Option String := (fileName? path).bind fun name => (splitName name).2

/-- The path with an extension added to the name it ends with. -/
def addExtension (path extension : String) : String :=
  match fileName? path with
  | some name => ofSegments ((trimmedSegments path).dropLast ++ [name ++ "." ++ extension])
  | none => path

/-- The path of the directory around a path; the root and the empty path have none. -/
def parent? (path : String) : Option String :=
  match trimmedSegments path with
  | [] => none
  | [first] => if first == "" then none else some ""
  | first :: rest => some (ofSegments (first :: dropVoidEnd rest.dropLast))

/-- A path and the directories around it, up to `n` of them. -/
def ancestorsWithin : Nat → String → List String
  | 0, path => [path]
  | n + 1, path => path :: ((parent? path).map (ancestorsWithin n)).getD []

/-- A path and all directories around it, the innermost first. A directory has fewer segments than what is in it. -/
def ancestors (path : String) : List String := ancestorsWithin (segments path).length path

/-! ## Joining -/

/-- A path seen from a directory: an absolute one is itself. -/
def joined (directory path : String) : String :=
  if isAbsolute path then path
  else if directory == "" || directory.toList.getLast? == some '/' then directory ++ path
  else directory ++ "/" ++ path

end Phrasebook.Path
