import Phrasebook.Text.Basic

/-!
# Options

Reading the words behind the name of a command by the options that the command has. An option with a value takes
the next word, unless that is an option itself. The value of an option is looked at when the next option or
argument begins, or at the end, so an unknown option is reported before a value that is missing.
-/

namespace Phrasebook

open Phrasebook.Text

/-! ## Words -/

/-- A word of a command line. -/
inductive CommandWord where
  /-- Two hyphens alone: no word behind them is an option. -/
  | endOfOptions
  /-- An option by its long name, with the value behind an equals sign. -/
  | long (name : String) (value : Option String)
  | letters (group : List Char)
  /-- Any other word. -/
  | plain (text : String)
  deriving DecidableEq, Repr

def CommandWord.ofString (word : String) : CommandWord :=
  match word.toList with
  | ['-', '-'] => .endOfOptions
  | '-' :: '-' :: rest => match cut? '=' rest with
    | some (name, value) => .long (String.ofList name) (some (String.ofList value))
    | none => .long (String.ofList rest) none
  | '-' :: c :: cs => .letters (c :: cs)
  | _ => .plain word

/-! ## Options of a command -/

/-- What an option takes. -/
inductive OptionKind where
  /-- Nothing. -/
  | flag
  /-- Nothing, and it asks for help instead. -/
  | help
  | text
  | texts
  | path
  deriving DecidableEq, Repr

def OptionKind.takesValue : OptionKind → Bool
  | .flag => false
  | .help => false
  | _ => true

/-- An option of a command. -/
structure CommandOption where
  name : String
  letter : Option Char
  /-- What the option takes. -/
  kind : OptionKind
  deriving DecidableEq, Repr

/-- Why a command line is not read to a command. -/
inductive UsageError where
  /-- There is no such option, or one argument too many. -/
  | unknownArgument
  /-- There is no such command. -/
  | invalidSubcommand
  | missingRequiredArgument
  /-- The value of an option is missing or empty. -/
  | invalidValue
  /-- An option has a value that takes none. -/
  | tooManyValues
  /-- An option is given twice. -/
  | argumentConflict
  | displayHelp
  | displayVersion
  deriving DecidableEq, Repr

/-! ## Reading -/

/-- What was read so far. -/
structure OptionScan where
  /-- The values of options by their names, in the order of the command line. -/
  given : List (String × String)
  /-- The arguments that belong to no option. -/
  positionals : List String
  /-- The last option, with the value it got, before it is looked at. -/
  pending : Option (CommandOption × Option String)
  ended : Bool
  deriving DecidableEq, Repr

namespace OptionScan

/-- Nothing was read. -/
def start : OptionScan := ⟨[], [], none, false⟩

def has (s : OptionScan) (name : String) : Bool := s.given.any fun g => g.1 == name

/-- The value of an option that is given at most once. -/
def value? (s : OptionScan) (name : String) : Option String := s.given.lookup name

/-- The values of an option that may be repeated. -/
def values (s : OptionScan) (name : String) : List String :=
  (s.given.filter fun g => g.1 == name).map (·.2)

/-- Takes an option with its value. -/
def give (s : OptionScan) (o : CommandOption) (value : String) : Except UsageError OptionScan :=
  if o.kind ≠ .texts && s.has o.name then .error .argumentConflict
  else if o.kind = .path && value.isEmpty then .error .invalidValue
  else .ok { s with given := s.given ++ [(o.name, value)] }

/-- Looks at the last option. -/
def settle (s : OptionScan) : Except UsageError OptionScan :=
  match s.pending with
  | none => .ok s
  | some (_, none) => .error .invalidValue
  | some (o, some value) => { s with pending := none }.give o value

/-- Takes an option that has no value. -/
def flag (s : OptionScan) (o : CommandOption) : Except UsageError OptionScan :=
  match s.settle with
  | .error e => .error e
  | .ok s => if o.kind = .help then .error .displayHelp else s.give o ""

/-- Takes an option whose value may stand in the same word. -/
def valued (s : OptionScan) (o : CommandOption) (value : Option String) : Except UsageError OptionScan :=
  match s.settle with
  | .error e => .error e
  | .ok s => match value with
    | some v => s.give o v
    | none => .ok { s with pending := some (o, none) }

def long (options : List CommandOption) (s : OptionScan) (name : String) (value : Option String) :
    Except UsageError OptionScan :=
  match options.find? fun o => o.name == name with
  | none => .error .unknownArgument
  | some o =>
    if o.kind.takesValue then s.valued o value
    else if value.isSome then .error .tooManyValues
    else s.flag o

/-- The value behind the letter of an option, without the equals sign it may begin with. -/
def attached : List Char → Option String
  | [] => none
  | '=' :: cs => some (String.ofList cs)
  | cs => some (String.ofList cs)

/-- Takes options by their letters; the first that takes a value has the rest of the word. -/
def letters (options : List CommandOption) (s : OptionScan) : List Char → Except UsageError OptionScan
  | [] => .ok s
  | c :: cs => match options.find? fun o => o.letter == some c with
    | none => .error .unknownArgument
    | some o =>
      if o.kind.takesValue then s.valued o (attached cs)
      else match s.flag o with
        | .error e => .error e
        | .ok s => s.letters options cs

/-- Takes an argument that belongs to no option, of which there may be `most`. -/
def positional (most : Nat) (s : OptionScan) (text : String) : Except UsageError OptionScan :=
  -- An argument too many is told before the last option is looked at.
  if most ≤ s.positionals.length then .error .unknownArgument
  else match s.settle with
    | .error e => .error e
    | .ok s => .ok { s with positionals := s.positionals ++ [text] }

def word (options : List CommandOption) (most : Nat) (s : OptionScan) (text : String) :
    Except UsageError OptionScan :=
  if s.ended then s.positional most text
  else match CommandWord.ofString text with
    | .endOfOptions => .ok { s with ended := true }
    | .long name value => s.long options name value
    | .letters group => s.letters options group
    -- A plain word belongs to the option in front of it, if that still lacks its value.
    | .plain text => match s.pending with
      | some (o, none) => .ok { s with pending := some (o, some text) }
      | _ => s.positional most text

/-- Takes words in order. -/
def words (options : List CommandOption) (most : Nat) (s : OptionScan) :
    List String → Except UsageError OptionScan
  | [] => s.settle
  | text :: texts => match s.word options most text with
    | .error e => .error e
    | .ok s => s.words options most texts

end OptionScan

end Phrasebook
