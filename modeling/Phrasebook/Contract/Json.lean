import Phrasebook.Contract.Basic
import Phrasebook.Json.Printer
import Phrasebook.Json.Record

/-!
# Contracts in the data format

A file of contracts holds a record with one field, `contracts`. `ContractSet.read?` reads such a file and
`ContractSet.toJson` writes all fields, also those that need not be written.
-/

namespace Phrasebook

open JsonSyntax

/-- The contracts of a file. -/
structure ContractSet where
  /-- The contracts, in the order of the file. -/
  contracts : List Contract
  deriving DecidableEq, Repr

/-! ## Roles -/

namespace Role

def word : Role → String
  | .locale => "locale"
  | .argument => "argument"
  | .ignored => "ignored"

def ofWord? (word : String) : Option Role :=
  [Role.locale, .argument, .ignored].find? fun r => r.word == word

/-- Reads a role: its word, or an object with nothing but null under its word. -/
def ofSyntax? : JsonSyntax → Option Role
  | .string pieces => (text? pieces).bind ofWord?
  | .object [(pieces, .null)] => (text? pieces).bind ofWord?
  | _ => none

end Role

/-! ## Reading -/

def MethodParameter.ofSyntax? (s : JsonSyntax) : Option MethodParameter := do
  let fields ← record? ["name", "type", "role"] s
  let name ← required? asText? "name" fields
  let type ← required? asText? "type" fields
  let role ← optional? Role.ofSyntax? .argument "role" fields
  some ⟨name, type, role⟩

def Method.ofSyntax? (s : JsonSyntax) : Option Method := do
  let fields ← record? ["name", "key", "parameters"] s
  let name ← required? asText? "name" fields
  let key ← optional? (orNull? asText?) none "key" fields
  let parameters ← optional? (asList? MethodParameter.ofSyntax?) [] "parameters" fields
  some ⟨name, key, parameters⟩

def Contract.ofSyntax? (s : JsonSyntax) : Option Contract := do
  let fields ← record? ["name", "file", "methods"] s
  let name ← required? asText? "name" fields
  let file ← optional? (orNull? asText?) none "file" fields
  let methods ← optional? (asList? Method.ofSyntax?) [] "methods" fields
  some ⟨name, file, methods⟩

namespace ContractSet

/-- Reads the content of a file of contracts. -/
def ofSyntax? (s : JsonSyntax) : Option ContractSet := do
  let fields ← record? ["contracts"] s
  let contracts ← optional? (asList? Contract.ofSyntax?) [] "contracts" fields
  some ⟨contracts⟩

def read? (text : String) : Option ContractSet := (JsonSyntax.read? text.toList).bind ofSyntax?

end ContractSet

/-! ## Writing -/

/-- A text that may be missing. -/
def nullableText : Option String → Json
  | some s => .string s
  | none => .null

def MethodParameter.toJson (p : MethodParameter) : Json :=
  .object [("name", .string p.name), ("type", .string p.type), ("role", .string p.role.word)]

def Method.toJson (m : Method) : Json :=
  .object [("name", .string m.name), ("key", nullableText m.key),
    ("parameters", .array (m.parameters.map MethodParameter.toJson))]

def Contract.toJson (c : Contract) : Json :=
  .object [("name", .string c.name), ("file", nullableText c.file),
    ("methods", .array (c.methods.map Method.toJson))]

def ContractSet.toJson (s : ContractSet) : Json :=
  .object [("contracts", .array (s.contracts.map Contract.toJson))]

end Phrasebook
