import Phrasebook.CompileError
import Phrasebook.Basic
import Phrasebook.Name.Identifier

/-!
# Settings

What all contracts of a run share: locales, properties and names. Valid settings have a default locale among their
locales, and locales and properties that get distinct identifiers.
-/

namespace Phrasebook

open Phrasebook.Name

/-- What all contracts of a run share. -/
structure Settings where
  managerName : String
  locales : List String
  defaultLocale : String
  /-- The package that file names leave out. -/
  package : String
  properties : KeyMap ParamType
  deriving DecidableEq

/-- The name of the manager when none is given. -/
def defaultManagerName : String := "localization.LocalizationManager"

/-- Fails when the settings are not valid. -/
def Settings.validate (s : Settings) : Except CompileError Unit :=
  if s.locales.isEmpty then .error (.invalidConfig .noLocale)
  else if !s.locales.contains s.defaultLocale then
    .error (.invalidConfig (.unknownDefault s.defaultLocale s.locales))
  else do
    ensureDistinct .locales ofLocale s.locales
    ensureDistinct .properties ofProperty s.properties.keys

end Phrasebook
