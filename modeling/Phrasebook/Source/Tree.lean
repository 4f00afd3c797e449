import Phrasebook.Basic
import Phrasebook.Text.Basic

/-!
# Trees of phrases

What a source of one locale holds: texts at the leaves of a tree whose branches have names. The key of a leaf is
the names on the way to it with dots between them.

- `SourceTree.leaves` lists the leaves with their keys, in the order of the document.
- `SourceTree.flatten` is the map from keys to leaves; of two leaves with one key the later one stays.
- `SourceError` says why a source has no tree.
-/

namespace Phrasebook

open Phrasebook.Text

/-- A text of a source, with the tag it may have. -/
structure Leaf where
  text : String
  /-- The tag, without its mark. -/
  tag : Option String
  deriving DecidableEq, Repr, Inhabited

/-- The parameter list that a tag spells; a blank tag spells none. -/
def Leaf.parameterTag (l : Leaf) : Option String :=
  match l.tag with
  | some t => if (trimmed t).isEmpty then none else some (trimmed t)
  | none => none

/-- The content of a source. -/
inductive SourceTree where
  /-- A text. -/
  | leaf (content : Leaf)
  /-- Trees under names, in the order of the document. -/
  | branch (children : List (String × SourceTree))
  deriving Repr, Inhabited

/-- The key of a child: its name, behind the key of its parent if that is not empty. -/
def childKey (parent name : String) : String := if parent.isEmpty then name else parent ++ "." ++ name

namespace SourceTree

/-- The tree of a source without content. -/
def empty : SourceTree := .branch []

mutual

/-- The leaves of a tree at a key, with their keys, in the order of the document. -/
def leavesAt (key : String) : SourceTree → List (String × Leaf)
  | .leaf content => [(key, content)]
  | .branch children => leavesOf key children
termination_by structural t => t

def leavesOf (key : String) : List (String × SourceTree) → List (String × Leaf)
  | [] => []
  | (name, t) :: ts => leavesAt (childKey key name) t ++ leavesOf key ts
termination_by structural ts => ts

end

/-- The leaves of a tree with their keys, in the order of the document. -/
def leaves (t : SourceTree) : List (String × Leaf) := leavesAt "" t

def flatten (t : SourceTree) : KeyMap Leaf := .ofList t.leaves

end SourceTree

/-! ## Errors -/

/-- What a source may not hold. -/
inductive Unsupported where
  /-- A list of values. -/
  | sequence
  /-- A list of values in the data format that calls it an array. -/
  | array
  /-- A key that is no text, number or truth value. -/
  | mappingKey
  deriving DecidableEq, Repr

def Unsupported.name : Unsupported → String
  | .sequence => "sequence"
  | .array => "array"
  | .mappingKey => "mapping key"

/-- Why a source cannot be read. -/
inductive SourceError where
  /-- The file cannot be read as a text. -/
  | unreadable
  /-- The text does not follow the grammar of its format. -/
  | malformed
  /-- The text holds, at a key, what no source may hold. -/
  | unsupported (what : Unsupported) (key : String)
  /-- The name of the file shows no known format. -/
  | unknownFormat
  deriving DecidableEq, Repr

def SourceError.reason : SourceError → String
  | .unreadable => "unreadable file"
  | .malformed => "malformed document"
  | .unsupported what key => "unsupported " ++ what.name ++ " at '" ++ key ++ "'"
  | .unknownFormat => "unknown source format (expected .yaml, .yml or .json)"

end Phrasebook
