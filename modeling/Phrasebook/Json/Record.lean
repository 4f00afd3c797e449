import Phrasebook.Json.Reader

/-!
# Reading records

A record has fields of known names. It is written as an object, whose members of other names mean nothing, or as an
array of its fields in their order, which may end early. A known name stands in an object at most once.

- `record?` finds the written values of the fields.
- `required?` and `optional?` read the value of one field.
-/

namespace Phrasebook.JsonSyntax

/-! ## Fields -/

/-- The written values of the fields of a record. -/
abbrev Record := List (String × JsonSyntax)

def membersRecord? (names : List String) : List (List Piece × JsonSyntax) → Option Record
  | [] => some []
  | (pieces, v) :: ms => match text? pieces, membersRecord? names ms with
    | some name, some fields =>
      if !names.contains name then some fields
      else if (fields.lookup name).isSome then none
      else some ((name, v) :: fields)
    | _, _ => none

def record? (names : List String) : JsonSyntax → Option Record
  | .object members => membersRecord? names members
  | .array items => if items.length ≤ names.length then some (names.zip items) else none
  | _ => none

/-- The value of a field that must be written. -/
def required? {α : Type} (read : JsonSyntax → Option α) (name : String) (fields : Record) : Option α :=
  (fields.lookup name).bind read

/-- The value of a field that has a value when it is not written. -/
def optional? {α : Type} (read : JsonSyntax → Option α) (default : α) (name : String) (fields : Record) :
    Option α :=
  match fields.lookup name with
  | some v => read v
  | none => some default

/-! ## Values -/

def asText? : JsonSyntax → Option String
  | .string pieces => text? pieces
  | _ => none

/-- Reads a value that may be null. -/
def orNull? {α : Type} (read : JsonSyntax → Option α) : JsonSyntax → Option (Option α)
  | .null => some none
  | v => (read v).map some

def asList? {α : Type} (read : JsonSyntax → Option α) : JsonSyntax → Option (List α)
  | .array items => items.mapM read
  | _ => none

/-- Reads values under names, which are written as an object; the last value of a name counts. -/
def asEntries? {α : Type} (read : JsonSyntax → Option α) : JsonSyntax → Option (List (String × α))
  | .object members => members.mapM fun m => match text? m.1, read m.2 with
    | some name, some v => some (name, v)
    | _, _ => none
  | _ => none

end Phrasebook.JsonSyntax
