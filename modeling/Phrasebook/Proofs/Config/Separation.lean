import Phrasebook.Config.Validation
import Phrasebook.Proofs.Path
import Phrasebook.Proofs.Source.Location
import Phrasebook.Proofs.Traverse

/-!
# Sources in places of their own

A valid configuration has a placeholder of the file in its format, and one of the locale when there are several. That
keeps the sources of different files and of different locales apart as long as the placeholders share no sign and a
locale brings none along; otherwise different sources can be in one place, although the configuration is valid.

## Layers

- `marks_of_validate`: the placeholders of a valid configuration.
- `Config.Apart`: sources in places of their own.
- `validate_separates`: the sources of a valid configuration.
-/

namespace Phrasebook

open Phrasebook.Text

namespace Config

/-! ## §1 Valid configurations -/

/-- A valid configuration has a placeholder of the file, and one of the locale when there are several. -/
theorem marks_of_validate {c : Config} (h : c.validate = .ok ()) :
    contains Location.nameMark c.locationFormat.toList = true ∧
      (1 < c.locales.length → contains Location.localeMark c.locationFormat.toList = true) := by
  -- The format is checked last, so the checks in front of it have passed.
  have hlocation : c.checkLocation = .ok () := by
    unfold validate at h
    split at h
    · cases h
    · obtain ⟨_, -, h⟩ := bind_eq_ok.mp h
      obtain ⟨_, -, h⟩ := bind_eq_ok.mp h
      obtain ⟨_, hlocation, -⟩ := bind_eq_ok.mp h
      exact hlocation
  unfold checkLocation at hlocation
  split at hlocation
  · cases hlocation
  · rename_i hname
    split at hlocation
    · cases hlocation
    · rename_i hlocale
      refine ⟨by simpa using hname, fun hseveral => ?_⟩
      simpa [hseveral] using hlocale

/-! ## §2 Sources -/

/-- Where a source is, seen from the directory of all sources. -/
def location (c : Config) (locale file : String) : String := Location.expand c.locationFormat locale file

theorem sourcePath_eq (c : Config) (root locale file : String) :
    c.sourcePath root locale file =
      Path.joined (Path.joined root c.localizationDirectory) (c.location locale file) :=
  rfl

/-- Two sources are in places of their own: they have different locations, so their paths are different texts unless
just one of the locations starts at the root, and they lead to different places if the locations are plain paths. -/
structure Apart (c : Config) (root locale file locale' file' : String) : Prop where
  location_ne : c.location locale file ≠ c.location locale' file'
  path_ne : Path.isAbsolute (c.location locale file) = Path.isAbsolute (c.location locale' file') →
    c.sourcePath root locale file ≠ c.sourcePath root locale' file'
  not_same : Path.isAbsolute (c.location locale file) = Path.isAbsolute (c.location locale' file') →
    Path.Plain (c.location locale file) → Path.Plain (c.location locale' file') →
    ¬ Path.Same (c.sourcePath root locale file) (c.sourcePath root locale' file')

/-- Sources with different locations are in places of their own. -/
theorem apart_of_location_ne {c : Config} {locale file locale' file' : String}
    (h : c.location locale file ≠ c.location locale' file') (root : String) :
    c.Apart root locale file locale' file' where
  location_ne := h
  path_ne := fun habsolute hpath => h (Path.joined_inj habsolute hpath)
  not_same := fun habsolute hplain hplain' hsame =>
    h ((Path.same_of_same_joined habsolute hsame).eq_of_plain hplain hplain')

/-- The sources of a valid configuration. Different files are in places of their own as long as the placeholder of the
file stays when the locale is put in, which it does when the placeholders share no sign; where it does not stay, all
files are in one place. When there are several locales, different ones are in places of their own if they bring no
placeholder of the file along. -/
theorem validate_separates {c : Config} (hvalid : c.validate = .ok ()) :
    (∀ locale, (Location.MarksApart c.locationFormat → Location.NameStays c.locationFormat locale) ∧
      ∀ root file file', Location.filePath file.toList ≠ Location.filePath file'.toList →
        if Location.NameStays c.locationFormat locale then c.Apart root locale file locale file'
        else c.sourcePath root locale file = c.sourcePath root locale file') ∧
    (1 < c.locales.length → ∀ root locale locale' file,
      Location.localeFolder locale.toList ≠ Location.localeFolder locale'.toList →
      Location.NameApart c.locationFormat locale file → Location.NameApart c.locationFormat locale' file →
      c.Apart root locale file locale' file) := by
  obtain ⟨hname, hlocale⟩ := marks_of_validate hvalid
  refine ⟨fun locale => ⟨fun hapart => hapart.nameStays hname locale, fun root file file' hne => ?files⟩,
    fun hseveral root locale locale' file hne hapart hapart' => ?locales⟩
  -- Two files have one place exactly when the name no longer stands in what is left of the format.
  case files =>
    split
    · rename_i hstays
      exact apart_of_location_ne ((Location.expand_file_iff hne).mpr hstays) root
    · rename_i hstays
      have heq : c.location locale file = c.location locale file' :=
        not_not.mp fun hdiffer => hstays ((Location.expand_file_iff hne).mp hdiffer)
      rw [sourcePath_eq, sourcePath_eq, heq]
  case locales => exact apart_of_location_ne (Location.expand_locale_ne (hlocale hseveral) hne hapart hapart') root

theorem validate_separates_greetings :
    validate { default with locales := ["en-US", "de-DE"] } = .ok () ∧
      Apart { default with locales := ["en-US", "de-DE"] } "/app" "en-US" "greetings" "en-US" "farewells" ∧
      Apart { default with locales := ["en-US", "de-DE"] } "/app" "en-US" "greetings" "de-DE" "greetings" ∧
      ¬ Path.Same "/app/localization/en_us/greetings.yaml" "/app/localization/de_de/greetings.yaml" := by
  have hvalid : validate { default with locales := ["en-US", "de-DE"] } = .ok () := rfl
  have hregular : Location.Regular "%locale%/%name%.yaml" := by decide
  obtain ⟨hfiles, hlocales⟩ := validate_separates hvalid
  have hstays := (hfiles "en-US").1 ⟨by decide, by decide⟩
  have hfile := (hfiles "en-US").2 "/app" "greetings" "farewells" (by decide)
  rw [if_pos hstays] at hfile
  have hlocale := hlocales (by decide) "/app" "en-US" "de-DE" "greetings" (by decide)
    (hregular.nameApart (by decide) _) (hregular.nameApart (by decide) _)
  exact ⟨hvalid, hfile, hlocale, hlocale.not_same (by decide) (by decide) (by decide)⟩

/-- Sources of valid configurations in one place: all files where the placeholders share a sign, two locales where one
is called like the placeholder of the file, and two files where one is called like an absolute path. -/
theorem sources_in_one_place :
    (validate { default with locationFormat := "%locale%name%.yaml" } = .ok () ∧
      Location.filePath "greetings".toList ≠ Location.filePath "farewells".toList ∧
      sourcePath { default with locationFormat := "%locale%name%.yaml" } "/app" "en-US" "greetings" =
        sourcePath { default with locationFormat := "%locale%name%.yaml" } "/app" "en-US" "farewells") ∧
    (validate { default with locales := ["a", "%name%"] } = .ok () ∧
      Location.localeFolder "a".toList ≠ Location.localeFolder "%name%".toList ∧
      sourcePath { default with locales := ["a", "%name%"] } "/app" "a" "a" =
        sourcePath { default with locales := ["a", "%name%"] } "/app" "%name%" "a") ∧
    (validate { default with locationFormat := "%name%.yaml" } = .ok () ∧
      Location.filePath "x".toList ≠ Location.filePath ".app.localization.x".toList ∧
      sourcePath { default with locationFormat := "%name%.yaml" } "/app" "en-US" "x" =
        sourcePath { default with locationFormat := "%name%.yaml" } "/app" "en-US" ".app.localization.x") :=
  ⟨⟨rfl, by decide, by decide⟩, ⟨rfl, by decide, by decide⟩, ⟨rfl, by decide, by decide⟩⟩

end Config

end Phrasebook
