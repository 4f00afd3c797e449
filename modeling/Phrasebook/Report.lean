import Phrasebook.Issue
import Phrasebook.Text.Styled
import Phrasebook.Text.Width

/-!
# Reports

What a user reads of a run: the issues in their order, each with its location, and a last line that counts them; or
one line that says that there is nothing to report.
-/

namespace Phrasebook

open Phrasebook.Text

/-! ## Counting -/

/-- A number of things with their name, which has an ending of its own for one thing. -/
def counted (n : Nat) (one many : String) : String := toString n ++ " " ++ (if n = 1 then one else many)

/-- How many issues there are of each severity. -/
structure IssueCount where
  errors : Nat
  warnings : Nat
  deriving DecidableEq, Repr

namespace IssueCount

/-- The number of issues. -/
def total (n : IssueCount) : Nat := n.errors + n.warnings

def ofIssues (issues : List Issue) : IssueCount :=
  let errors := issues.countP fun i => i.severity = .error
  ⟨errors, issues.length - errors⟩

/-- The name of a number of things. -/
def noun (n : Nat) (one many : String) : String := if n = 1 then one else many

def line (n : IssueCount) : StyledLine :=
  [⟨.red, "✘"⟩,
    plainText (" " ++ counted n.total "problem" "problems" ++ " (" ++ toString n.errors ++ " "),
    ⟨.red, noun n.errors "error" "errors"⟩,
    plainText (", " ++ toString n.warnings ++ " "),
    ⟨.yellow, noun n.warnings "warning" "warnings"⟩,
    plainText ")"]

end IssueCount

/-! ## One issue -/

namespace Issue

def nameStyle : Severity → Style
  | .error => .boldRed
  | .warning => .boldYellow

def caretStyle : Severity → Style
  | .error => .red
  | .warning => .yellow

/-- The message in the first line of an issue; that of a key stands in quotes. -/
def headline (i : Issue) : String :=
  match i.location with
  | .key .. => "\"" ++ i.message ++ "\""
  | _ => i.message

/-- The first line of an issue. -/
def headLine (i : Issue) : StyledLine :=
  [⟨nameStyle i.severity, i.severity.name⟩, plainText (": " ++ i.headline ++ "  "), ⟨.dimmedCyan, i.code⟩]

def pathLine (path : String) : StyledLine := [plainText "  ", ⟨.blue, "-->"⟩, plainText (" " ++ path)]

def barLine (parts : StyledLine) : StyledLine := plainText "   " :: ⟨.blue, "|"⟩ :: parts

/-- The carets under a key: as many as the key is wide, but at least one. -/
def carets (s : Severity) (key : String) : StyledLine :=
  List.replicate (max 1 (displayWidth key)) ⟨caretStyle s, "^"⟩

def locationLines (i : Issue) : List StyledLine :=
  match i.location with
  | .global => []
  | .file path => [pathLine path]
  | .key file key =>
    [pathLine file, barLine [], barLine [plainText (" " ++ key)],
      barLine (plainText " " :: carets i.severity key)]

def noteLine (style : Style) (label text : String) : StyledLine :=
  [plainText "   ", ⟨.blue, "="⟩, plainText " ", ⟨style, label⟩, plainText (" " ++ text)]

/-- The lines of an issue, the last one being empty. -/
def lines (i : Issue) : List StyledLine :=
  i.headLine :: i.locationLines
    ++ (i.details.map (noteLine .bold "note:")).toList
    ++ (i.hint.map (noteLine .boldCyan "hint:")).toList
    ++ [[]]

end Issue

/-! ## Reports -/

/-- The lines of a report: none when there is no issue. -/
def reportLines (issues : List Issue) : List StyledLine :=
  if issues.isEmpty then []
  else (Issue.sorted issues).flatMap Issue.lines ++ [(IssueCount.ofIssues issues).line]

def report (coloured : Bool) (issues : List Issue) : String := writtenLines coloured (reportLines issues)

/-- The line of something that went well. -/
def successLine (text : String) : StyledLine := [⟨.green, "✓"⟩, plainText " ", ⟨.green, text⟩]

/-- The line of something that went wrong. -/
def errorLine (text : String) : StyledLine := [⟨.boldRed, "error"⟩, plainText (": " ++ text)]

/-- What is said of contracts without issues. -/
def successText (contracts keys files : Nat) : String :=
  "Compiled " ++ counted contracts "contract" "contracts" ++ " (" ++ counted keys "key" "keys"
    ++ ") from " ++ counted files "source file" "source files" ++ " - no issues found"

end Phrasebook
