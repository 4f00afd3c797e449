import Phrasebook.Accessor.Table
import Phrasebook.Catalog.Basic
import Phrasebook.Contract.Declaration
import Phrasebook.Name.Identifier

/-!
# Tables of catalogs

From the catalog of a contract and the declarations of its methods to the table of what can be called. Names that
must be distinct in the generated module are checked on the way.
-/

namespace Phrasebook

open Phrasebook.Name

namespace Table

/-! ## Accessors -/

/-- The templates of an entry in locales other than the default one. -/
def branchesOf (locales : List String) (defaultLocale : String) (e : CatalogEntry) : List Branch :=
  (locales.filter fun l => l != defaultLocale).filterMap fun l => (e.templates.get? l).map fun t => ⟨l, t⟩

/-- The template that stands in for a locale without one: that of the default locale, or else of the first locale
that has one. -/
def fallbackOf (locales : List String) (defaultLocale : String) (e : CatalogEntry) : Option Branch :=
  (defaultLocale :: locales).findSome? fun l => (e.templates.get? l).map fun t => ⟨l, t⟩

def accessorOf (locales : List String) (defaultLocale key : String) (e : CatalogEntry) : Accessor :=
  ⟨key, accessor key, e.schema, branchesOf locales defaultLocale e, fallbackOf locales defaultLocale e⟩

/-- Makes the accessors of entries behind those whose keys are `seen`, the last one first. -/
def accessorsFrom (c : Catalog) (locales : List String) (defaultLocale : String) (seen : List String) :
    List (String × CatalogEntry) → Except CompileError (List Accessor)
  | [] => .ok []
  | (key, e) :: es =>
    match seen.find? fun k => accessor k == accessor key with
    | some first => .error (.accessorCollision c.contract ⟨accessor key, first, key⟩)
    | none => do
      ensureDistinct (.keyParameters c.contract key) ofParameter e.schema.names
      let rest ← accessorsFrom c locales defaultLocale (key :: seen) es
      return accessorOf locales defaultLocale key e :: rest

/-! ## Methods -/

/-- The place in a call of a parameter of the key of a declaration. -/
def argumentPlace (c : Catalog) (d : Declaration) (p : Parameter) : Except CompileError Nat :=
  match d.methodParameters.findIdx? fun name => name == p.name with
  | some i => .ok i
  | none => .error (.invalidDeclaration c.contract d.method (.unknownParameter p.name))

/-- The method of a declaration. -/
def forwardingOf (c : Catalog) (d : Declaration) : Except CompileError Forwarding :=
  match c.entries.get? d.key with
  | none => .error (.invalidDeclaration c.contract d.method (.unknownKey d.key))
  | some e => (traverse (argumentPlace c d) e.schema).map fun places =>
      ⟨d.method, d.key, d.methodParameters, d.localeSlot, places⟩

/-- Makes the methods of declarations behind those whose names are `seen`. -/
def methodsFrom (c : Catalog) (seen : List String) :
    List Declaration → Except CompileError (List Forwarding)
  | [] => .ok []
  | d :: ds =>
    if seen.contains d.method then .error (.invalidDeclaration c.contract d.method .repeatedMethod)
    else do
      ensureDistinct (.methodParameters c.contract d.method) ofParameter d.methodParameters
      let f ← forwardingOf c d
      let rest ← methodsFrom c (d.method :: seen) ds
      return f :: rest

/-! ## Tables -/

def ofCatalog (c : Catalog) (ds : List Declaration) (locales : List String) (defaultLocale : String) :
    Except CompileError Table := do
  let accessors ← accessorsFrom c locales defaultLocale [] c.entries.entries
  let methods ← methodsFrom c [] ds
  ensureDistinct (.methods c.contract) ofMethod (methods.map (·.name))
  return ⟨c.contract, c.fileName, locales, defaultLocale,
    .ofList (accessors.map fun a => (a.key, a)), .ofList (methods.map fun m => (m.name, m))⟩

end Table

end Phrasebook
