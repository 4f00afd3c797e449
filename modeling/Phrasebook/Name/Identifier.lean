import Phrasebook.Text.Case

/-!
# Identifiers of the generated module

How a locale, a key, a contract, a property, a parameter or a method is called in the generated Rust module. An
identifier holds ASCII letters, digits and underscores and starts with no digit; one that is a keyword is written
raw, and one that cannot be raw gets an underscore at its end.

A hump of a name is an ASCII capital after a character that is no ASCII capital. `splitHumps` puts a separator in
front of every hump and lower-cases the result, so that acronyms stay together.

Two names of one scope must not be mapped to one identifier. `firstCollision?` gives the first name whose identifier
an earlier name has, together with that name.
-/

namespace Phrasebook.Name

open Phrasebook.Text

/-! ## Humps -/

/-- The text with a separator in front of every hump. -/
def separateHumps (sep : Char) : List Char → List Char
  | [] => []
  | [c] => [c]
  | a :: b :: cs =>
    if !isCapital a && isCapital b then a :: sep :: b :: separateHumps sep cs
    else a :: separateHumps sep (b :: cs)

/-- The name in lower case, with a separator in front of every hump. -/
def splitHumpsChars (sep : Char) (s : List Char) : List Char := lower (separateHumps sep s)

/-- The name in lower case, with a separator in front of every hump. -/
def splitHumps (name : String) (sep : Char) : String :=
  String.ofList (splitHumpsChars sep name.toList)

/-! ## Characters -/

def isDigit (c : Char) : Bool := '0' ≤ c && c ≤ '9'

def isLetter (c : Char) : Bool := ('a' ≤ c && c ≤ 'z') || isCapital c

/-- An ASCII letter or digit. -/
def isAlphanumeric (c : Char) : Bool := isLetter c || isDigit c

/-- The text with a character in front when it is empty or starts with a digit. -/
def guardStart (guard : Char) : List Char → List Char
  | [] => [guard]
  | c :: cs => if isDigit c then guard :: c :: cs else c :: cs

/-! ## Accessors -/

/-- The character that stands for a character of a key in an identifier. -/
def accessorChar (c : Char) : Char := if isAlphanumeric c || c = '_' then lowerAscii c else '_'

/-- The identifier of a key. -/
def accessorChars (key : List Char) : List Char := guardStart '_' (key.map accessorChar)

/-- The identifier of the accessor of a key: what cannot stand in an identifier becomes an underscore. -/
def accessor (key : String) : String := String.ofList (accessorChars key.toList)

/-! ## Keywords -/

/-- The keywords of Rust that may be written raw. -/
def keywords : List String :=
  ["as", "async", "await", "break", "const", "continue", "dyn", "else", "enum", "extern",
   "false", "fn", "for", "gen", "if", "impl", "in", "let", "loop", "match", "mod", "move", "mut",
   "pub", "ref", "return", "static", "struct", "trait", "true", "type", "unsafe", "use", "where",
   "while", "abstract", "become", "box", "do", "final", "macro", "override", "priv", "try",
   "typeof", "unsized", "virtual", "yield"]

/-- The words that can be no identifier, not even a raw one. -/
def reserved : List String := ["self", "super", "crate", "_"]

/-- The parameter names that every generated accessor has already. -/
def taken : List String := ["locale", "props"]

/-- The identifier with what it needs not to be read as a keyword. -/
def escaped (ident : String) : String :=
  if reserved.contains ident then ident ++ "_"
  else if keywords.contains ident then "r#" ++ ident
  else ident

/-! ## Names of the generated module -/

/-- A word in lower case with a capital at its start. -/
def capitalized : List Char → List Char
  | [] => []
  | c :: cs => upperAscii (lowerAscii c) :: cs.map lowerAscii

/-- The variant of a locale: `en-US` is `EnUs`. -/
def variantChars (locale : List Char) : List Char :=
  guardStart 'L' ((splitBy (fun c => !isAlphanumeric c) locale).flatMap capitalized)

/-- The variant of a locale: `en-US` is `EnUs`. -/
def ofLocale (locale : String) : String := String.ofList (variantChars locale.toList)

/-- The identifier of a name with humps, before keywords are escaped. -/
def snake (name : String) : String :=
  String.ofList (accessorChars (splitHumpsChars '_' name.toList))

/-- The module of a contract: `bot.commands.HelpCommand` is `bot_commands_help_command`. -/
def ofContract (contract : String) : String :=
  let segments := (splitOn '.' contract.toList).map (splitHumpsChars '_')
  escaped (String.ofList (accessorChars (List.intercalate ['_'] segments)))

def ofProperty (name : String) : String := escaped (snake name)

def ofMethod (name : String) : String := escaped (snake name)

/-- The parameter of a parameter name: two names are taken, so they get an underscore at their end. -/
def ofParameter (name : String) : String :=
  let ident := snake name
  if taken.contains ident then ident ++ "_" else escaped ident

/-! ## Distinct names -/

/-- Two names of one scope with one identifier. -/
structure Collision where
  /-- The identifier that both names have. -/
  ident : String
  /-- The earlier name. -/
  first : String
  /-- The later name. -/
  second : String
  deriving DecidableEq, Repr

/-- The first collision of a list of names with the names before it, given with their identifiers. -/
def collisionAfter (derive : String → String) (seen : List (String × String)) :
    List String → Option Collision
  | [] => none
  | name :: names =>
    match seen.lookup (derive name) with
    | some earlier => some ⟨derive name, earlier, name⟩
    | none => collisionAfter derive ((derive name, name) :: seen) names

/-- The first collision of a list of names. -/
def firstCollision? (derive : String → String) (names : List String) : Option Collision :=
  collisionAfter derive [] names

end Phrasebook.Name
