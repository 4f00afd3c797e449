import Phrasebook.Json.Reader
import Phrasebook.Source.Tree
import Phrasebook.Source.Tag
import Phrasebook.Yaml.Value

/-!
# Reading sources

From the text of a source to its tree. A source holds texts, numbers, truth values and nothing, all of which become
texts, and mappings of them; a list has no meaning in a source. A blank text is a source without content, and so
is one that is nothing altogether.

In YAML a text may have a tag, and a tag on a mapping leaves no trace; the other format has no tags.
-/

namespace Phrasebook

open Phrasebook.Text

/-! ## Formats -/

/-- The formats of a source. -/
inductive SourceFormat where
  /-- The format of `.yaml` and `.yml` files. -/
  | yaml
  /-- The format of `.json` files. -/
  | json
  deriving DecidableEq, Repr

namespace SourceTree

def boolText (b : Bool) : String := if b then "true" else "false"

/-- The leaf of a text without tag. -/
def untagged (text : String) : SourceTree := .leaf ⟨text, none⟩

/-! ## From the data format without tags -/

mutual

/-- The tree of a value at a key. -/
def ofJson (key : String) : Json → Except SourceError SourceTree
  | .null => .ok (untagged "")
  | .bool b => .ok (untagged (boolText b))
  | .number n => .ok (untagged (String.ofList n.text))
  | .string s => .ok (untagged s)
  | .array _ => .error (.unsupported .array key)
  | .object fields => (ofJsonFields key fields).map .branch
termination_by structural v => v

/-- The children of an object at a key. -/
def ofJsonFields (key : String) : List (String × Json) → Except SourceError (List (String × SourceTree))
  | [] => .ok []
  | (name, v) :: fs => match ofJson (childKey key name) v with
    | .error e => .error e
    | .ok t => (ofJsonFields key fs).map ((name, t) :: ·)
termination_by structural fs => fs

end

/-! ## From the data format with tags -/

def keyName? : Yaml.Value → Option String
  | .string s => some s
  | .number n => some n.text
  | .bool b => some (boolText b)
  | _ => none

/-- A tag without the marks it starts with. -/
def bareTag (tag : String) : String := String.ofList (tag.toList.dropWhile (· == '!'))

mutual

/-- The tree of a value at a key, a scalar getting a tag. -/
def ofYaml (tag : Option String) (key : String) : Yaml.Value → Except SourceError SourceTree
  | .null => .ok (.leaf ⟨"", tag⟩)
  | .bool b => .ok (.leaf ⟨boolText b, tag⟩)
  | .number n => .ok (.leaf ⟨n.text, tag⟩)
  | .string s => .ok (.leaf ⟨s, tag⟩)
  | .sequence _ => .error (.unsupported .sequence key)
  | .mapping entries => (ofYamlEntries key entries).map .branch
  | .tagged t v => ofYaml (some (bareTag t)) key v
termination_by structural v => v

/-- The children of a mapping at a key. -/
def ofYamlEntries (key : String) :
    List (Yaml.Value × Yaml.Value) → Except SourceError (List (String × SourceTree))
  | [] => .ok []
  | (k, v) :: es => match keyName? k with
    | none => .error (.unsupported .mappingKey key)
    | some name => match ofYaml none (childKey key name) v with
      | .error e => .error e
      | .ok t => (ofYamlEntries key es).map ((name, t) :: ·)
termination_by structural es => es

end

/-! ## Texts -/

/-- Reads a text of the format without tags. -/
def readJson (text : String) : Except SourceError SourceTree :=
  if allBlank text then .ok empty
  else match Json.read? text with
    | none => .error .malformed
    | some .null => .ok empty
    | some v => ofJson "" v

def readYaml (text : String) : Except SourceError SourceTree :=
  if allBlank text then .ok empty
  else match Yaml.Value.read? (SourceTag.normalizeTags text.toList) with
    | none => .error .malformed
    | some .null => .ok empty
    | some v => ofYaml none "" v

def read (format : SourceFormat) (text : String) : Except SourceError SourceTree :=
  match format with
  | .yaml => readYaml text
  | .json => readJson text

end SourceTree

end Phrasebook
