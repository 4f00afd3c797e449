/-!
# Tokens of a YAML text

The grammar of YAML is one of tokens. Indentation is among them: a block collection has a token where it starts
and one where it ends, although nothing is written there.
-/

namespace Phrasebook.Yaml

/-- The characters of a tag. An escape that encodes no character stands as `none`. -/
abbrev TagText := List (Option Char)

/-- A token. -/
inductive Token where
  /-- The version that a document asks for. -/
  | versionDirective (major minor : Nat)
  /-- An abbreviation for the start of tags. -/
  | tagDirective (handle : List Char) (expansion : TagText)
  | documentStart
  | documentEnd
  | streamEnd
  | blockSequenceStart
  | blockMappingStart
  /-- The end of a collection by indentation. -/
  | blockEnd
  /-- An opening square bracket. -/
  | flowSequenceStart
  /-- A closing square bracket. -/
  | flowSequenceEnd
  /-- An opening brace. -/
  | flowMappingStart
  /-- A closing brace. -/
  | flowMappingEnd
  /-- The hyphen in front of an item. -/
  | blockEntry
  /-- The comma between items. -/
  | flowEntry
  /-- The place in front of a key. -/
  | key
  /-- The colon in front of a value. -/
  | value
  /-- The name of an earlier node that stands here again. -/
  | reference (name : List Char)
  /-- A name for the node that follows. -/
  | anchor (name : List Char)
  /-- A tag for the node that follows: an abbreviation and the text behind it. -/
  | tag (handle : List Char) (suffix : TagText)
  /-- A text, written plainly or between quotes or as a block. -/
  | scalar (text : List Char) (plain : Bool)
  deriving DecidableEq, Repr

end Phrasebook.Yaml
