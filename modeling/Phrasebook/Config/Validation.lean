import Phrasebook.Config.Basic
import Phrasebook.Path
import Phrasebook.Source.Location
import Phrasebook.Text.Basic
import Phrasebook.Basic

/-!
# Valid configurations

A valid configuration lists locales that are not blank and all different, has a default locale among them, and puts
the sources of different files and locales in places of their own. The types of its properties can be read.
-/

namespace Phrasebook

open Phrasebook.Text

namespace Config

/-! ## Parts -/

/-- The default locale: the one that is given, or the first one. -/
def mainLocale (c : Config) : String := (c.defaultLocale.or c.locales.head?).getD ""

def propertyType (property : String × String) : Except ConfigFault (String × ParamType) :=
  match ParamType.parse property.2 with
  | .error e => .error (.invalidProperty property.1 property.2 e)
  | .ok t => .ok (property.1, t)

def propertyTypes (c : Config) : Except ConfigFault (KeyMap ParamType) :=
  (traverse propertyType c.properties.entries).map .ofList

/-- Fails on the first locale that is blank or stands among those before it, which are `seen`. -/
def checkLocales (seen : List String) : List String → Except ConfigFault Unit
  | [] => .ok ()
  | locale :: locales =>
    if allBlank locale then .error .blankLocale
    else if seen.contains locale then .error (.repeatedLocale locale)
    else checkLocales (locale :: seen) locales

/-- Fails when a default locale is given that is none of the locales. -/
def checkDefault (c : Config) : Except ConfigFault Unit :=
  match c.defaultLocale with
  | none => .ok ()
  | some locale =>
    if c.locales.contains locale then .ok () else .error (.unlistedDefault locale c.locales)

/-- Fails when two sources would be in one place. -/
def checkLocation (c : Config) : Except ConfigFault Unit :=
  if !contains Location.nameMark c.locationFormat.toList then
    .error (.locationWithoutName c.locationFormat)
  else if 1 < c.locales.length && !contains Location.localeMark c.locationFormat.toList then
    .error (.locationWithoutLocale c.locationFormat)
  else .ok ()

/-! ## The whole -/

/-- Fails when a configuration is not valid. -/
def validate (c : Config) : Except ConfigFault Unit := do
  if c.locales.isEmpty then throw .noLocaleListed
  checkLocales [] c.locales
  c.checkDefault
  c.checkLocation
  let _ ← c.propertyTypes

def settings (c : Config) : Except CompileError Settings := do
  c.validate.mapError .invalidConfig
  let properties ← c.propertyTypes.mapError .invalidConfig
  return ⟨c.managerName, c.locales, c.mainLocale, c.package, properties⟩

/-! ## Places -/

def contractsPath (c : Config) (root : String) : String := Path.joined root c.contracts

def sourcePath (c : Config) (root locale file : String) : String :=
  Path.joined (Path.joined root c.localizationDirectory) (Location.expand c.locationFormat locale file)

end Config

end Phrasebook
