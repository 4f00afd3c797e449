import Phrasebook.Command.Options
import Phrasebook.Project.Basic

/-!
# Commands

There are four commands: to check a project, to render one of its keys, to generate its module, and to begin a
project. `Invocation.ofWords` reads a command line.
-/

namespace Phrasebook

/-! ## Types -/

/-- What a user asks for. -/
inductive Command where
  /-- To compile a project and report what is found. -/
  | check (project : ProjectOptions)
  | render (contract key : String) (locale : Option String) (arguments : List String)
      (project : ProjectOptions)
  | generate (output : Option String) (project : ProjectOptions)
  /-- To write the default configuration. -/
  | init (path : Option String)
  deriving DecidableEq, Repr

/-- Whether a command is to tell more than usual. -/
def Command.verbose : Command → Bool
  | check p => p.verbose
  | render _ _ _ _ p => p.verbose
  | generate _ p => p.verbose
  | init _ => false

/-- What a command line asks for. -/
inductive Invocation where
  /-- Nothing in particular, so help is shown. -/
  | overview
  | run (command : Command)
  deriving DecidableEq, Repr

/-! ## Options -/

def helpOption : CommandOption := ⟨"help", some 'h', .help⟩

def projectOptions : List CommandOption :=
  [⟨"path", none, .path⟩, ⟨"default-locale", none, .text⟩, ⟨"verbose", some 'v', .flag⟩, helpOption]

def renderOptions : List CommandOption :=
  [⟨"locale", none, .text⟩, ⟨"arg", none, .texts⟩] ++ projectOptions

def generateOptions : List CommandOption := ⟨"output", some 'o', .path⟩ :: projectOptions

/-- The options of the command that begins a project. -/
def initOptions : List CommandOption := [⟨"path", none, .path⟩, helpOption]

def ProjectOptions.ofScan (s : OptionScan) : ProjectOptions :=
  ⟨s.value? "path", s.value? "default-locale", s.has "verbose"⟩

/-! ## Reading -/

namespace Command

def names : List String := ["check", "render", "generate", "init"]

def readCheck (words : List String) : Except UsageError Command :=
  (OptionScan.start.words projectOptions 0 words).map fun s => .check (.ofScan s)

/-- Reads the words behind the name of the command that renders. -/
def readRender (words : List String) : Except UsageError Command :=
  match OptionScan.start.words renderOptions 2 words with
  | .error e => .error e
  | .ok s => match s.positionals with
    | [contract, key] => .ok (.render contract key (s.value? "locale") (s.values "arg") (.ofScan s))
    | _ => .error .missingRequiredArgument

/-- Reads the words behind the name of the command that generates. -/
def readGenerate (words : List String) : Except UsageError Command :=
  (OptionScan.start.words generateOptions 0 words).map fun s => .generate (s.value? "output") (.ofScan s)

/-- Reads the words behind the name of the command that begins a project. -/
def readInit (words : List String) : Except UsageError Command :=
  (OptionScan.start.words initOptions 0 words).map fun s => .init (s.value? "path")

def read (name : String) (words : List String) : Except UsageError Command :=
  match name with
  | "check" => readCheck words
  | "render" => readRender words
  | "generate" => readGenerate words
  | "init" => readInit words
  | _ => .error .invalidSubcommand

end Command

namespace Invocation

/-- What the words behind `help` ask for: help on one command, or on all. -/
def readHelp : List String → UsageError
  | [] => .displayHelp
  | [name] => if Command.names.contains name || name == "help" then .displayHelp else .invalidSubcommand
  | _ => .invalidSubcommand

/-- What a long option in front of a command asks for. -/
def readLong (name : String) (value : Option String) : UsageError :=
  if name == "help" || name == "version" then
    if value.isSome then .tooManyValues
    else if name == "help" then .displayHelp else .displayVersion
  else .unknownArgument

/-- What the first letter of options in front of a command asks for. -/
def readLetter (c : Char) : UsageError :=
  if c = 'h' then .displayHelp else if c = 'V' then .displayVersion else .unknownArgument

/-- What the words behind the end of options ask for, when no command stands before it. -/
def readEnded : List String → Except UsageError Invocation
  | [] => .ok .overview
  | word :: _ =>
    if Command.names.contains word || word == "help" then .error .unknownArgument
    else .error .invalidSubcommand

/-- Reads a command line. -/
def ofWords : List String → Except UsageError Invocation
  | [] => .ok .overview
  | word :: words =>
    if word == "help" then .error (readHelp words)
    else if Command.names.contains word then (Command.read word words).map .run
    else match CommandWord.ofString word with
      | .endOfOptions => readEnded words
      | .long name value => .error (readLong name value)
      | .letters group => .error ((group.head?.map readLetter).getD .unknownArgument)
      | .plain _ => .error .invalidSubcommand

end Invocation

end Phrasebook
