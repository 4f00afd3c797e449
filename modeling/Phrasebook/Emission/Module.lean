import Phrasebook.Compile.Settings
import Phrasebook.Emission.Contract
import Phrasebook.Emission.Support

/-!
# Generated modules

The module that is generated from settings and tables: the locales as an enumeration, the properties as a record,
the support code, and a module for each contract.
-/

namespace Phrasebook

open Phrasebook.Name Phrasebook.Text

/-! ## Types -/

/-- A locale with its variant. -/
structure LocaleVariant where
  locale : String
  variant : String
  deriving DecidableEq, Repr

/-- A property with its field. -/
structure PropertyField where
  name : String
  field : String
  type : ParamType
  deriving DecidableEq, Repr

/-- A generated module. -/
structure GeneratedModule where
  managerName : String
  locales : List LocaleVariant
  defaultVariant : String
  properties : List PropertyField
  contracts : List ContractModule
  deriving DecidableEq, Repr

def GeneratedModule.ofTables (s : Settings) (tables : List Table) : GeneratedModule where
  managerName := s.managerName
  locales := s.locales.map fun l => ⟨l, ofLocale l⟩
  defaultVariant := ofLocale s.defaultLocale
  properties := s.properties.entries.map fun p => ⟨p.1, ofProperty p.1, p.2⟩
  contracts := tables.map (.ofTable s.properties)

/-! ## Code -/

def localeLines (locales : List LocaleVariant) (defaultVariant : String) : List CodeLine :=
  [⟨0, "#[derive(Debug, Clone, Copy, PartialEq, Eq, Hash)]"⟩, ⟨0, "pub enum Locale \x7b"⟩]
  ++ locales.map (fun l => ⟨1, l.variant ++ ","⟩)
  ++ [⟨0, "\x7d"⟩,
    .blank,
    ⟨0, "impl Locale \x7b"⟩,
    ⟨1, "pub const ALL: &'static [Locale] = &["
      ++ commaList (locales.map fun l => localePath l.variant) ++ "];"⟩,
    ⟨1, "pub const DEFAULT: Locale = " ++ localePath defaultVariant ++ ";"⟩,
    .blank,
    ⟨1, "pub fn as_str(self) -> &'static str \x7b"⟩,
    ⟨2, "match self \x7b"⟩]
  ++ locales.map (fun l => ⟨3, armCode (localePath l.variant) (quoted l.locale)⟩)
  ++ [⟨2, "\x7d"⟩,
    ⟨1, "\x7d"⟩,
    .blank,
    ⟨1, "pub fn from_tag(tag: &str) -> Option<Locale> \x7b"⟩,
    ⟨2, "match tag \x7b"⟩]
  ++ locales.map (fun l => ⟨3, armCode (quoted l.locale) (callText "Some" [localePath l.variant])⟩)
  ++ [⟨3, armCode "_" "None"⟩, ⟨2, "\x7d"⟩, ⟨1, "\x7d"⟩, ⟨0, "\x7d"⟩, .blank]

def propertyLines (properties : List PropertyField) : List CodeLine :=
  [⟨0, "pub const PROPERTY_NAMES: &[&str] = &["
      ++ commaList (properties.map fun p => quoted p.name) ++ "];"⟩,
    .blank,
    ⟨0, "/// Declared properties. Unset values leave their placeholder in place."⟩,
    ⟨0, "#[derive(Debug, Clone, Default)]"⟩]
  ++ (if properties.isEmpty then [⟨0, "pub struct Properties \x7b\x7d"⟩]
    else
      ⟨0, "pub struct Properties \x7b"⟩ ::
        properties.map (fun p => ⟨1, "pub " ++ p.field ++ ": Option<" ++ p.type.ownedType ++ ">,"⟩)
        ++ [⟨0, "\x7d"⟩])
  ++ [.blank]

namespace GeneratedModule

def headLines (m : GeneratedModule) : List CodeLine :=
  [⟨0, "// @generated by loccat. Do not edit."⟩,
    ⟨0, "#![allow(dead_code, unused_variables, clippy::all)]"⟩,
    .blank,
    ⟨0, "pub const MANAGER_NAME: &str = " ++ quoted m.managerName ++ ";"⟩,
    .blank]
  ++ localeLines m.locales m.defaultVariant
  ++ propertyLines m.properties

def linesAround (m : GeneratedModule) (support : List String) : List CodeLine :=
  m.headLines
  ++ support.map (fun code => ⟨0, code⟩)
  ++ m.contracts.flatMap fun c => .blank :: c.lines

def text (m : GeneratedModule) : String := CodeLine.writtenAll (m.linesAround supportLines)

end GeneratedModule

end Phrasebook
