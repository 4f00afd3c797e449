import Phrasebook.Accessor.Error
import Phrasebook.Compile.Run
import Phrasebook.Report

/-!
# Results of commands

What a command has found and done, what of it is logged and written to the standard streams, and with which status the
program ends.
-/

namespace Phrasebook

/-! ## Types -/

/-- What a command has done. -/
inductive CommandSummary where
  | check (contracts keys sourceFiles : Nat)
  /-- A key was rendered, or could not be; or the compilation has failed before. -/
  | render (result : Option (Except LookupError String))
  /-- A module was generated, to be shown or written to a file; or the compilation has failed before. -/
  | generate (code output : Option String) (contracts accessors : Nat)
  /-- The default configuration was written, unless there was one. -/
  | init (path : String) (existing : Bool)

/-- What a command has found and done. -/
structure CommandResult where
  /-- What was done. -/
  summary : CommandSummary
  /-- What was found, in the order of a report. -/
  issues : List Issue
  /-- What was logged of the issues, in the order of finding. The other records of the log, which tell of files and not
  of issues, are left out. -/
  log : List LogRecord

/-- What is written to the standard streams, the log left aside: its records go to the error stream too, in front of
all else. -/
structure CommandOutput where
  /-- The text for the standard output. -/
  out : String
  /-- The text for the standard error stream, behind the records of the log. -/
  err : String
  deriving DecidableEq, Repr

namespace CommandResult

/-- The result of a command that has found issues. -/
def finish (summary : CommandSummary) (issues : List Issue) : CommandResult := ⟨summary, Issue.sorted issues, []⟩

/-- The result of a command that has compiled a project, and has logged what was found. -/
def logging (r : CommandResult) (o : CompileOutput) : CommandResult := { r with log := o.log }

def failed (summary : CommandSummary) (e : CompileError) : CommandResult := finish summary [.ofError e]

/-! ## Status -/

def summaryErrors : CommandSummary → Nat
  | .render (some (.error _)) => 1
  | .init _ true => 1
  | _ => 0

/-- The number of errors. -/
def errorCount (r : CommandResult) : Nat := (IssueCount.ofIssues r.issues).errors + summaryErrors r.summary

/-- The status of a program whose command was carried out: 1 when there are errors. -/
def status (r : CommandResult) : Nat := if 0 < r.errorCount then 1 else 0

/-- The status of a program whose command could not be carried out. -/
def brokenStatus : Nat := 2

/-! ## Output -/

/-- What is said of a module that was written. -/
def generatedText (path : String) (contracts accessors : Nat) : String :=
  "Generated " ++ counted accessors "accessor" "accessors" ++ " for "
    ++ counted contracts "contract" "contracts" ++ " in " ++ path

/-- What is said of a configuration that was there already. -/
def existingText (path : String) : String := path ++ " already exists; remove it to start from the defaults"

def writtenText (path : String) : String := "Wrote default configuration to " ++ path

/-- What a result is written as. The report of a check is its output; that of another command goes to the error
stream, because the output is a text or a module. -/
def output (coloured : Bool) (r : CommandResult) : CommandOutput :=
  let report := report coloured r.issues
  match r.summary with
  | .check contracts keys sourceFiles =>
    if r.issues.isEmpty then
      ⟨(successLine (successText contracts keys sourceFiles)).written coloured, ""⟩
    else ⟨report, ""⟩
  | .render none => ⟨"", report⟩
  | .render (some (.ok text)) => ⟨text ++ "\n", report⟩
  | .render (some (.error e)) => ⟨"", (errorLine e.message).written coloured ++ report⟩
  | .generate code none _ _ => ⟨code.getD "", report⟩
  | .generate code (some path) contracts accessors =>
    ⟨code.getD "" ++ (successLine (generatedText path contracts accessors)).written coloured, report⟩
  | .init path true => ⟨"", (errorLine (existingText path)).written coloured⟩
  | .init path false => ⟨(successLine (writtenText path)).written coloured, ""⟩

end CommandResult

end Phrasebook
