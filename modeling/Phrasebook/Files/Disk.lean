import Phrasebook.Basic
import Phrasebook.Path

/-!
# Access to files

What the library asks of a file system. The operations run in a monad of the caller: the program runs them on the
machine, and `Disk.access` runs them on a value.

A `Disk` is a file system as a value: what stands at each place, a place being the names on the way from the root. A
path is followed name by name through directories; `..` leads to the directory around one.
-/

namespace Phrasebook

open Phrasebook.Text

/-! ## Operations -/

/-- What can stand at a path. -/
inductive FileKind where
  | file
  | directory
  deriving DecidableEq, Repr

/-- The operations on files. A path that is not absolute is seen from the current directory. -/
structure FileAccess (m : Type → Type) where
  currentDirectory : m String
  /-- What stands at a path, if there is anything. -/
  kind? : String → m (Option FileKind)
  /-- The text of a file, unless it cannot be read or is no text. -/
  readText? : String → m (Option String)
  /-- Makes a directory and those around it that do not exist, and tells whether the directory exists then. -/
  makeDirectories : String → m Bool
  /-- Writes the text of a file, and tells whether that went well. -/
  writeText : String → String → m Bool

/-- Whether anything stands at a path. -/
def FileAccess.exists? {m : Type → Type} [Monad m] (files : FileAccess m) (path : String) : m Bool := do
  return (← files.kind? path).isSome

/-! ## Disks -/

/-- What stands at a place. -/
inductive DiskNode where
  | file (text : Option String)
  | directory
  deriving DecidableEq, Repr

/-- A file system with a current directory. -/
structure Disk where
  /-- What stands at the places other than the root, by their paths. -/
  nodes : KeyMap DiskNode
  /-- The place of the current directory. -/
  current : List String
  deriving DecidableEq

namespace Disk

/-! ## Places -/

def pathOf (place : List String) : String := "/" ++ join "/" place

/-- What stands at a place; the root is a directory. -/
def node? (d : Disk) (place : List String) : Option DiskNode :=
  if place.isEmpty then some .directory else d.nodes.get? (pathOf place)

/-- The disk with something at a place. -/
def set (d : Disk) (place : List String) (n : DiskNode) : Disk :=
  { d with nodes := d.nodes.insert (pathOf place) n }

/-- The place that names lead to from a place; all but the last must lead through directories. -/
def follow (d : Disk) (place : List String) : List String → Option (List String)
  | [] => some place
  | name :: names =>
    if d.node? place ≠ some .directory then none
    else if Path.isVoid name then d.follow place names
    else if name = ".." then d.follow place.dropLast names
    else d.follow (place ++ [name]) names

/-- The place a path leads to; something need not stand there. -/
def place? (d : Disk) (path : String) : Option (List String) :=
  if path.isEmpty then none
  else if Path.isAbsolute path then d.follow [] (Path.segments path)
  else d.follow d.current (Path.segments path)

/-- What stands at a path. -/
def nodeAt? (d : Disk) (path : String) : Option DiskNode := (d.place? path).bind d.node?

def isDirectory (d : Disk) (path : String) : Bool := d.nodeAt? path = some .directory

/-! ## Changes -/

/-- The disk with a directory at a path, unless something else stands there or the path leads nowhere. -/
def makeDirectory? (d : Disk) (path : String) : Option Disk :=
  if d.isDirectory path then some d
  else match d.place? (Path.withoutVoidEnd path) with
    | none => none
    | some place => if (d.node? place).isSome then none else some (d.set place .directory)

/-- Makes directories in order, up to the first that cannot be made, and tells whether all were made. -/
def makeEach (d : Disk) : List String → Bool × Disk
  | [] => (true, d)
  | path :: paths => match d.makeDirectory? path with
    | some d => d.makeEach paths
    | none => (false, d)

/-- Makes a directory and those around it that do not exist. -/
def makeDirectories (d : Disk) (path : String) : Bool × Disk :=
  d.makeEach ((Path.ancestors path).reverse.filter fun p => p != "")

/-- Writes the text of a file, which need not exist. -/
def writeText (d : Disk) (path text : String) : Bool × Disk :=
  match d.place? path with
  | none => (false, d)
  | some place =>
    if d.node? place = some .directory then (false, d) else (true, d.set place (.file (some text)))

/-! ## Access -/

def kindOf : DiskNode → FileKind
  | .file _ => .file
  | .directory => .directory

def textOf? : DiskNode → Option String
  | .file text => text
  | .directory => none

/-- The operations on a disk. -/
def access : FileAccess (StateM Disk) where
  currentDirectory := fun d => (pathOf d.current, d)
  kind? := fun path d => ((d.nodeAt? path).map kindOf, d)
  readText? := fun path d => ((d.nodeAt? path).bind textOf?, d)
  makeDirectories := fun path d => d.makeDirectories path
  writeText := fun path text d => d.writeText path text

end Disk

end Phrasebook
