import Phrasebook.Compile.Settings
import Phrasebook.Json.Printer
import Phrasebook.Json.Record

/-!
# Configuration

A project is configured by a record in a file; each field has a value when it is not written. `Config.read?` reads a
file and `Config.toJson` writes one, which leaves out a default locale that is not given.
-/

namespace Phrasebook

open JsonSyntax

/-- The configuration of a project. -/
structure Config where
  managerName : String
  /-- The types of the properties, as they are written. -/
  properties : KeyMap String
  locales : List String
  defaultLocale : Option String
  localizationDirectory : String
  /-- Where the source of a locale and a file is in that directory. -/
  locationFormat : String
  /-- The package that file names leave out. -/
  package : String
  contracts : String
  deriving DecidableEq

namespace Config

/-- The configuration of a project that has no file of it. -/
def default : Config where
  managerName := defaultManagerName
  properties := .empty
  locales := ["en-US"]
  defaultLocale := none
  localizationDirectory := "localization"
  locationFormat := "%locale%/%name%.yaml"
  package := ""
  contracts := "contracts.json"

/-- The names of the fields, in their order. -/
def fieldNames : List String :=
  ["managerName", "properties", "locales", "defaultLocale", "localizationDirectory", "locationFormat",
    "botPackage", "contracts"]

/-! ## Reading -/

/-- Reads a written configuration. -/
def ofSyntax? (s : JsonSyntax) : Option Config := do
  let fields ← record? fieldNames s
  let managerName ← optional? asText? default.managerName "managerName" fields
  let properties ← optional? (asEntries? asText?) [] "properties" fields
  let locales ← optional? (asList? asText?) default.locales "locales" fields
  let defaultLocale ← optional? (orNull? asText?) none "defaultLocale" fields
  let directory ← optional? asText? default.localizationDirectory "localizationDirectory" fields
  let format ← optional? asText? default.locationFormat "locationFormat" fields
  let package ← optional? asText? default.package "botPackage" fields
  let contracts ← optional? asText? default.contracts "contracts" fields
  some ⟨managerName, .ofList properties, locales, defaultLocale, directory, format, package, contracts⟩

def read? (text : String) : Option Config := (JsonSyntax.read? text.toList).bind ofSyntax?

/-! ## Writing -/

def defaultLocaleField : Option String → List (String × Json)
  | some locale => [("defaultLocale", .string locale)]
  | none => []

/-- A configuration as a value. -/
def toJson (c : Config) : Json :=
  .object <|
    [("managerName", .string c.managerName),
      ("properties", .object (c.properties.entries.map fun e => (e.1, .string e.2))),
      ("locales", .array (c.locales.map .string))]
    ++ defaultLocaleField c.defaultLocale
    ++ [("localizationDirectory", .string c.localizationDirectory),
      ("locationFormat", .string c.locationFormat),
      ("botPackage", .string c.package),
      ("contracts", .string c.contracts)]

def defaultText : String := default.toJson.pretty

end Config

end Phrasebook
