import Phrasebook.Catalog.Basic
import Phrasebook.Contract.Declaration
import Phrasebook.Issue

/-!
# Schemas

The parameter list of every key of a contract. The declaration of a key decides its parameters, and a tag that
differs is reported. The tags of an undeclared key decide together, so they must agree; a key without tags has no
parameters.
-/

namespace Phrasebook

/-! ## Types -/

/-- The parameters of a key. -/
structure KeySchema where
  /-- The parameters, in the order of a call. -/
  parameters : ParameterList
  /-- Whether a method declares the key. -/
  declared : Bool
  deriving DecidableEq, Repr

/-- The parameters of all keys of a contract. -/
structure SchemaResolution where
  /-- The parameters, by key. -/
  schemas : KeyMap KeySchema
  /-- The tags that differ from a declaration. -/
  issues : List Issue
  deriving DecidableEq

/-- The tag of a key in one locale. -/
structure KeyTag where
  locale : String
  path : String
  /-- The tag as it is written. -/
  raw : String
  /-- The parameters that the tag spells. -/
  parameters : ParameterList
  deriving DecidableEq, Repr

namespace SchemaResolution

/-! ## Declared keys -/

/-- A declaration with its parameters, as it is shown in a conflict. -/
def declarationText (contract : String) (d : Declaration) : String :=
  contract ++ "." ++ d.method ++ ": " ++ d.parameters.display

/-- The first declaration of each key, behind those in `found`; later ones must have the same parameters. -/
def collectDeclared (contract : String) (found : KeyMap Declaration) :
    List Declaration → Except CompileError (KeyMap Declaration)
  | [] => .ok found
  | d :: ds => match found.get? d.key with
    | none => collectDeclared contract (found.insert d.key d) ds
    | some first =>
      if first.parameters = d.parameters then collectDeclared contract found ds
      else .error (.schemaConflict d.key [declarationText contract first, declarationText contract d])

/-- The first declaration of each key. -/
def declaredKeys (contract : String) (ds : List Declaration) : Except CompileError (KeyMap Declaration) :=
  collectDeclared contract .empty ds

/-! ## Tags -/

/-- Reads the tag of a key in a locale, if it has one. -/
def tagIn (key : String) (l : LocaleEntries) : Except CompileError (Option KeyTag) :=
  match (l.leaf? key).bind Leaf.parameterTag with
  | none => .ok none
  | some raw => match ParameterList.parse raw with
    | .error e => .error (.invalidParameterList key l.locale e)
    | .ok ps => .ok (some ⟨l.locale, l.path, raw, ps⟩)

def tagsOf (key : String) (locales : List LocaleEntries) : Except CompileError (List KeyTag) :=
  (traverse (tagIn key) locales).map (·.filterMap id)

def tagText (t : KeyTag) : String := t.locale ++ ": " ++ t.raw

/-- The parameters that all tags of an undeclared key spell. -/
def commonParameters (key : String) : List KeyTag → Except CompileError ParameterList
  | [] => .ok []
  | t :: ts =>
    if ts.all fun u => u.parameters = t.parameters then .ok t.parameters
    else .error (.schemaConflict key ((t :: ts).map tagText))

/-- The tags that differ from the declaration of a key. -/
def shadowed (contract key : String) (d : Declaration) (ts : List KeyTag) : List Issue :=
  (ts.filter fun t => t.parameters ≠ d.parameters).map fun t =>
    .shadowedTag contract key t.locale t.path t.raw d.parameters.display

/-! ## Keys -/

/-- The keys of sources, in their order; the empty text is no key. -/
def sourceKeys (locales : List LocaleEntries) : List String :=
  let keys := locales.flatMap fun l => l.entries.keys
  ((KeyMap.ofList (keys.map fun k => (k, ()))).erase "").keys

/-- The parameters of a key that is in a source, and what is reported of its tags. -/
def resolveKey (contract : String) (declared : KeyMap Declaration) (locales : List LocaleEntries)
    (key : String) : Except CompileError ((String × KeySchema) × List Issue) :=
  match tagsOf key locales with
  | .error e => .error e
  | .ok tags => match declared.get? key with
    | some d => .ok ((key, ⟨d.parameters, true⟩), shadowed contract key d tags)
    | none => (commonParameters key tags).map fun ps => ((key, ⟨ps, false⟩), [])

/-- The parameters of the keys that are declared or in a source. -/
def resolve (contract : String) (ds : List Declaration) (locales : List LocaleEntries) :
    Except CompileError SchemaResolution :=
  match declaredKeys contract ds with
  | .error e => .error e
  | .ok declared =>
    (traverse (resolveKey contract declared locales) (sourceKeys locales)).map fun found =>
      let fromMethods := declared.entries.map fun e => (e.1, (⟨e.2.parameters, true⟩ : KeySchema))
      -- A key that is declared and in a source has the same parameters in both lists.
      ⟨.ofList (found.map (·.1) ++ fromMethods), found.flatMap (·.2)⟩

end SchemaResolution

end Phrasebook
