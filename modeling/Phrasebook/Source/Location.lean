import Phrasebook.Path
import Phrasebook.Source.Reader
import Phrasebook.Text.Case

/-!
# Where sources are

The path of a source is made from a format with two placeholders: one for the locale and one for the file that a
contract belongs to. The ending of the path shows the format of the source.
-/

namespace Phrasebook

open Phrasebook.Text

namespace Location

def localeMark : List Char := "%locale%".toList

/-- The placeholder of the file. -/
def nameMark : List Char := "%name%".toList

/-- The folder name of a locale: in lower case, with underscores for hyphens. -/
def localeFolder (locale : List Char) : List Char := replaceChar '-' '_' (lower locale)

/-- The path of a file, whose name has dots where a path has slashes. -/
def filePath (file : List Char) : List Char := replaceChar '.' '/' file

/-- The location of a file in a locale: the placeholder of the locale is replaced first. -/
def expandChars (format locale file : List Char) : List Char :=
  replaceAll nameMark (filePath file) (replaceAll localeMark (localeFolder locale) format)

/-- The location of a file in a locale. -/
def expand (format locale file : String) : String :=
  String.ofList (expandChars format.toList locale.toList file.toList)

end Location

def SourceFormat.ofPath? (path : String) : Option SourceFormat :=
  match Path.extension? path with
  | some "yaml" => some .yaml
  | some "yml" => some .yaml
  | some "json" => some .json
  | _ => none

end Phrasebook
