import Phrasebook.CompileError

/-!
# Issues

What is found wrong with phrases without ending a run, and the failure that ends one. Every issue has a rule, a
severity, a location and a wording; `Issue.compare` orders issues for a report.
-/

namespace Phrasebook

open Phrasebook.Text

/-! ## Issues -/

/-- How much an issue matters. -/
inductive Severity where
  /-- Something is missing that cannot be made up for. -/
  | error
  /-- Something is amiss that the program copes with. -/
  | warning
  deriving DecidableEq, Repr

/-- Something that was found. -/
inductive Issue where
  | missingSource (contract locale file path : String)
  | missingDefault (contract path key defaultLocale : String) (definedIn : List String)
  /-- A locale other than the default one lacks a key. -/
  | missingTranslation (contract key locale path : String)
  /-- No locale has a key. -/
  | missingTemplate (contract file key : String)
  | shadowedTag (contract key locale path tag declared : String)
  /-- A placeholder is neither a parameter nor a property. -/
  | unknownPlaceholder (contract key locale path placeholder : String)
  /-- The run has ended with an error. -/
  | buildFailure (code message : String)
  deriving DecidableEq, Repr

/-- The kinds of issue, in the order of a report. -/
inductive Rule where
  | missingSource
  | missingDefault
  | missingTranslation
  | missingTemplate
  | shadowedTag
  | unknownPlaceholder
  /-- The run has failed. -/
  | buildFailure
  deriving DecidableEq, Repr

def Rule.rank : Rule → Nat
  | .missingSource => 0
  | .missingDefault => 1
  | .missingTranslation => 2
  | .missingTemplate => 3
  | .shadowedTag => 4
  | .unknownPlaceholder => 5
  | .buildFailure => 6

def Rule.name : Rule → String
  | .missingSource => "missing-source"
  | .missingDefault => "missing-default"
  | .missingTranslation => "missing-translation"
  | .missingTemplate => "missing-template"
  | .shadowedTag => "shadowed-tag"
  | .unknownPlaceholder => "unknown-placeholder"
  | .buildFailure => "build-failure"

def Severity.name : Severity → String
  | .error => "error"
  | .warning => "warning"

/-- Where an issue was found. -/
inductive IssueLocation where
  | file (path : String)
  | key (file key : String)
  /-- Nowhere in particular. -/
  | global
  deriving DecidableEq, Repr

/-- A record of the log. -/
structure LogRecord where
  level : Severity
  message : String
  code : String
  details : String
  deriving DecidableEq, Repr

namespace Issue

/-- The failure that an error ends a run with. -/
def ofError (e : CompileError) : Issue := .buildFailure e.code e.message

/-! ## Wording -/

def rule : Issue → Rule
  | missingSource .. => .missingSource
  | missingDefault .. => .missingDefault
  | missingTranslation .. => .missingTranslation
  | missingTemplate .. => .missingTemplate
  | shadowedTag .. => .shadowedTag
  | unknownPlaceholder .. => .unknownPlaceholder
  | buildFailure .. => .buildFailure

def severity : Issue → Severity
  | missingTemplate .. => .error
  | buildFailure .. => .error
  | _ => .warning

/-- Where an issue was found. -/
def location : Issue → IssueLocation
  | missingSource _ _ _ path => .file path
  | missingDefault _ path key _ _ => .key path key
  | missingTranslation _ key _ path => .key path key
  | missingTemplate _ file key => .key file key
  | shadowedTag _ key _ path _ _ => .key path key
  | unknownPlaceholder _ key _ path _ => .key path key
  | buildFailure .. => .global

/-- What an issue is about. -/
def message : Issue → String
  | missingSource _ locale file _ => "no " ++ locale ++ " source for '" ++ file ++ "'"
  | missingDefault _ _ key _ _ => key
  | missingTranslation _ key _ _ => key
  | missingTemplate _ _ key => key
  | shadowedTag _ key _ _ _ _ => key
  | unknownPlaceholder _ _ _ _ placeholder => "\x7b" ++ placeholder ++ "\x7d"
  | buildFailure _ message => message

/-- What is wrong. -/
def details : Issue → Option String
  | missingSource contract locale _ _ => some (contract ++ " gets no entries from " ++ locale)
  | missingDefault _ _ _ defaultLocale definedIn =>
    some ("missing in default locale " ++ defaultLocale ++ ", defined in: " ++ join ", " definedIn)
  | missingTranslation _ _ locale _ => some ("missing in " ++ locale)
  | missingTemplate contract _ _ => some ("declared by " ++ contract ++ " but defined in no locale")
  | shadowedTag _ _ locale _ tag declared =>
    some ("tag '" ++ tag ++ "' in " ++ locale ++ " ignored, declared as '" ++ declared ++ "'")
  | unknownPlaceholder _ key locale _ _ =>
    some ("'" ++ key ++ "' in " ++ locale ++ " is not a parameter or property, rendered verbatim")
  | buildFailure .. => none

/-- What happens as things are. -/
def hint : Issue → Option String
  | missingDefault _ _ _ _ (first :: _) => some ("other locales fall back to " ++ first)
  | _ => none

def code : Issue → String
  | buildFailure code _ => code
  | i => i.rule.name

/-- The record of an issue; without details there is an empty text for them. -/
def logRecord (i : Issue) : LogRecord := ⟨i.severity, i.message, i.code, i.details.getD ""⟩

/-! ## Order -/

def sortFile (i : Issue) : Option String :=
  match i.location with
  | .file path => some path
  | .key file _ => some file
  | .global => none

/-- The key an issue was found at; it is empty where there is none. -/
def sortKey (i : Issue) : String :=
  match i.location with
  | .key _ key => key
  | _ => ""

/-- The order of issues in one file, or in none: by key, rule and wording. -/
def compareWithin (a b : Issue) : Ordering :=
  (compareOfLessAndEq a.sortKey b.sortKey).then <|
    (compareOfLessAndEq a.rule.rank b.rule.rank).then (compareOfLessAndEq a.message b.message)

/-- The order of issues in a report: those without a file first, then by file. -/
def compare (a b : Issue) : Ordering :=
  match a.sortFile, b.sortFile with
  -- What is found nowhere in particular comes first.
  | none, some _ => .lt
  | some _, none => .gt
  | none, none => compareWithin a b
  | some f, some g => (compareOfLessAndEq f g).then (compareWithin a b)

/-- Issues in the order of a report; issues that compare equal keep their order. -/
def sorted (issues : List Issue) : List Issue := issues.mergeSort fun a b => (compare a b).isLE

end Issue

end Phrasebook
