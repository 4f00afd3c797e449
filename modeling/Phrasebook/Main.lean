import Phrasebook.Command.Run

/-!
# The program

Reads the command line, carries out the command on the files of the machine, and writes its output.
-/

namespace Phrasebook

def machineFiles : FileAccess IO where
  currentDirectory := do return (← IO.currentDir).toString
  kind? := fun path => do
    try
      let place ← IO.FS.realPath path
      if ← place.isDir then return some .directory
      else if ← place.pathExists then return some .file
      else return none
    catch _ => return none
  readText? := fun path => do
    try
      return String.fromUTF8? (← IO.FS.readBinFile path)
    catch _ => return none
  makeDirectories := fun path => do
    try
      IO.FS.createDirAll path
      return true
    catch _ => return false
  writeText := fun path text => do
    try
      IO.FS.writeFile path text
      return true
    catch _ => return false

/-- How the program is used. -/
def usageText : String :=
  "Usage: loccat [COMMAND]\n\n"
  ++ "Commands:\n"
  ++ "  check                  Compile all contracts and report what is missing or conflicting\n"
  ++ "  render CONTRACT KEY    Render one localization key\n"
  ++ "  generate               Generate accessors for all contracts\n"
  ++ "  init                   Write a new .loccatrc.json configuration file\n"
  ++ "  help                   Print this message\n\n"
  ++ "Options of check, render and generate:\n"
  ++ "      --path DIR                Project directory (defaults to the current directory)\n"
  ++ "      --default-locale LOCALE   Default locale (overrides the configuration)\n"
  ++ "  -v, --verbose                 Tell more than usual\n\n"
  ++ "Options of render:\n"
  ++ "      --locale LOCALE           Locale to render (defaults to the default locale)\n"
  ++ "      --arg NAME=VALUE          Argument, as a JSON value or else as text; may be repeated\n\n"
  ++ "Options of generate:\n"
  ++ "  -o, --output FILE             Write the module to a file\n\n"
  ++ "Options of init:\n"
  ++ "      --path DIR                Directory of the new file\n"

def UsageError.message : UsageError → String
  | unknownArgument => "unexpected argument"
  | invalidSubcommand => "unrecognized subcommand"
  | missingRequiredArgument => "a required argument is missing"
  | invalidValue => "a value is required for an option"
  | tooManyValues => "an option takes no value"
  | argumentConflict => "an option cannot be used more than once"
  | displayHelp => usageText
  | displayVersion => "loccat"

/-- Ends the program for a command line that is not a command. -/
def refuse (e : UsageError) : IO UInt32 := do
  if e = .displayHelp || e = .displayVersion then
    IO.println e.message
    return 0
  else
    IO.eprintln ("error: " ++ e.message)
    return UInt32.ofNat CommandResult.brokenStatus

/-- A record as it is written, without the time. -/
def LogRecord.text (r : LogRecord) : String :=
  (match r.level with
    | .error => "ERROR "
    | .warning => " WARN ")
  ++ r.message ++ " code=" ++ r.code ++ " details=" ++ r.details

/-- Carries out a command. -/
def perform (command : Command) : IO UInt32 := do
  let out ← IO.getStdout
  match ← command.run machineFiles with
  | .error e =>
    IO.eprintln ("Error: " ++ e.message)
    return UInt32.ofNat CommandResult.brokenStatus
  | .ok result =>
    for record in result.log do
      IO.eprintln record.text
    let output := result.output (← out.isTty)
    IO.print output.out
    IO.eprint output.err
    return UInt32.ofNat result.status

end Phrasebook

open Phrasebook in
/-- Runs the program on the words of a command line. -/
def main (words : List String) : IO UInt32 := do
  match Invocation.ofWords words with
  | .error e => refuse e
  | .ok .overview =>
    IO.print usageText
    return 0
  | .ok (.run command) => perform command
