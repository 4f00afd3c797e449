import Phrasebook.CompileError
import Phrasebook.Text.Quoted

/-!
# Why a command cannot be carried out

These errors come before or after a compilation: something of the project cannot be read, a command is not
understood, or a result cannot be written.
-/

namespace Phrasebook

open Phrasebook.Text

/-- What lies at the bottom of an error. -/
inductive FailureCause where
  | fileSystem
  /-- A document does not have its form. -/
  | malformed
  deriving DecidableEq, Repr

def FailureCause.message : FailureCause → String
  | fileSystem => "the file system refuses"
  | malformed => "malformed document"

/-- Why a command cannot be carried out. -/
inductive ProjectError where
  /-- The configuration file is no text that can be read. -/
  | configUnreadable (path : String)
  /-- The configuration file does not hold a configuration. -/
  | configMalformed (path : String)
  | configInvalid (path : String) (fault : ConfigFault)
  /-- The configuration is not valid with the default locale of the command. -/
  | overrideInvalid (fault : ConfigFault)
  /-- The file of contracts is no text that can be read. -/
  | contractsUnreadable (path : String)
  /-- The file of contracts does not hold contracts. -/
  | contractsMalformed (path : String)
  /-- An argument has no equals sign. -/
  | argumentWithoutValue (text : String)
  /-- An argument has nothing before its equals sign. -/
  | argumentWithoutName (text : String)
  | directoryNotMade (path : String)
  | fileNotWritten (path : String)
  deriving DecidableEq, Repr

namespace ProjectError

/-- The wordings of the error, outermost first, without its cause. -/
def messages : ProjectError → List String
  | configUnreadable path => ["Failed to read config file: " ++ quoted path]
  | configMalformed path => ["Failed to parse config file: " ++ quoted path]
  | configInvalid path fault => ("Invalid config file: " ++ quoted path) :: fault.chain
  | overrideInvalid fault => fault.chain
  | contractsUnreadable path => ["Failed to read contracts file: " ++ quoted path]
  | contractsMalformed path => ["Failed to parse contracts file: " ++ quoted path]
  | argumentWithoutValue text => ["Invalid argument '" ++ text ++ "': expected NAME=VALUE"]
  | argumentWithoutName text => ["Invalid argument '" ++ text ++ "': missing name"]
  | directoryNotMade path => ["Failed to create directory: " ++ quoted path]
  | fileNotWritten path => ["Failed to write " ++ quoted path]

/-- What lies at the bottom of the error, where that is not the last wording. -/
def cause? : ProjectError → Option FailureCause
  | configUnreadable _ => some .fileSystem
  | configMalformed _ => some .malformed
  | contractsUnreadable _ => some .fileSystem
  | contractsMalformed _ => some .malformed
  | directoryNotMade _ => some .fileSystem
  | fileNotWritten _ => some .fileSystem
  | _ => none

/-- The wording of the error with its cause. -/
def message (e : ProjectError) : String :=
  join ": " (e.messages ++ (e.cause?.map FailureCause.message).toList)

end ProjectError

end Phrasebook
