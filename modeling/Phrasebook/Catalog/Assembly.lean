import Phrasebook.Catalog.Basic
import Phrasebook.Catalog.Schema

/-!
# Assembly of a catalog

From the parameters of the keys and the phrases of the locales to the catalog of a contract. Gaps and unknown
placeholders are reported; none of them ends a run.
-/

namespace Phrasebook

/-- What an assembly depends on besides parameters and phrases. -/
structure AssemblyContext where
  contract : String
  fileName : String
  defaultLocale : String
  /-- The types of the properties, whose names are placeholders too. -/
  properties : KeyMap ParamType
  deriving DecidableEq

/-- A catalog with what is reported of it. -/
structure Assembly where
  catalog : Catalog
  /-- The gaps and unknown placeholders. -/
  issues : List Issue
  deriving DecidableEq

namespace Assembly

/-! ## One key in one locale -/

/-- The placeholders of a template that are neither parameters nor properties. -/
def unknownPlaceholders (properties : KeyMap ParamType) (schema : ParameterList) (t : Template) :
    List String :=
  t.placeholders.filter fun p => (schema.find? p).isNone && !properties.contains p

def localeIssues (ctx : AssemblyContext) (key : String) (schema : ParameterList) (l : LocaleEntries) :
    List Issue :=
  match l.leaf? key with
  | none =>
    if l.locale = ctx.defaultLocale then []
    else [.missingTranslation ctx.contract key l.locale l.path]
  | some leaf => (unknownPlaceholders ctx.properties schema ⟨leaf.text⟩).map fun p =>
      .unknownPlaceholder ctx.contract key l.locale l.path p

/-! ## One key -/

/-- The template of each locale that has a key, in the order of the locales. -/
def templatesOf (key : String) (locales : List LocaleEntries) : List (String × Template) :=
  locales.filterMap fun l => (l.leaf? key).map fun leaf => (l.locale, ⟨leaf.text⟩)

/-- What is reported of a key as a whole, `definedIn` being the locales that have it. -/
def gapIssues (ctx : AssemblyContext) (key : String) (locales : List LocaleEntries)
    (definedIn : List String) : List Issue :=
  if definedIn.isEmpty then [.missingTemplate ctx.contract ctx.fileName key]
  else match locales.find? fun l => l.locale == ctx.defaultLocale with
    | none => []
    | some l =>
      if l.has key then []
      else [.missingDefault ctx.contract l.path key ctx.defaultLocale definedIn]

def keyIssues (ctx : AssemblyContext) (locales : List LocaleEntries) (key : String) (s : KeySchema) :
    List Issue :=
  locales.flatMap (localeIssues ctx key s.parameters)
    ++ gapIssues ctx key locales ((templatesOf key locales).map (·.1))

/-- What the catalog holds of a key. -/
def entry (locales : List LocaleEntries) (key : String) (s : KeySchema) : CatalogEntry :=
  ⟨s.parameters, .ofList (templatesOf key locales), s.declared⟩

/-! ## All keys -/

def assemble (ctx : AssemblyContext) (schemas : KeyMap KeySchema) (locales : List LocaleEntries) :
    Assembly :=
  ⟨⟨ctx.contract, ctx.fileName, schemas.mapValues (entry locales)⟩,
    schemas.entries.flatMap fun e => keyIssues ctx locales e.1 e.2⟩

end Assembly

end Phrasebook
