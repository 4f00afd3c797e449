import Phrasebook.Parameter.List
import Phrasebook.Source.Tree
import Phrasebook.Template

/-!
# Catalogs

All that is known of the keys of one contract: parameters, and the templates of the locales that have them. A locale
has the leaves of a source, by key.
-/

namespace Phrasebook

/-! ## Phrases of a locale -/

/-- The leaves of a source, by key. -/
structure LocaleEntries where
  locale : String
  path : String
  /-- The leaves. -/
  entries : KeyMap Leaf
  deriving DecidableEq

namespace LocaleEntries

def leaf? (l : LocaleEntries) (key : String) : Option Leaf := l.entries.get? key

def has (l : LocaleEntries) (key : String) : Bool := l.entries.contains key

def ofTree (locale path : String) (tree : SourceTree) : LocaleEntries := ⟨locale, path, tree.flatten⟩

/-- The leaves without the one that has no key. -/
def named (l : LocaleEntries) : LocaleEntries := { l with entries := l.entries.erase "" }

end LocaleEntries

/-! ## Catalogs -/

/-- What is known of a key. -/
structure CatalogEntry where
  /-- The parameters, in the order of a call. -/
  schema : ParameterList
  templates : KeyMap Template
  /-- Whether a method declares the key. -/
  declared : Bool
  deriving DecidableEq

/-- The keys of a contract. -/
structure Catalog where
  contract : String
  fileName : String
  /-- What is known of each key. -/
  entries : KeyMap CatalogEntry
  deriving DecidableEq

end Phrasebook
