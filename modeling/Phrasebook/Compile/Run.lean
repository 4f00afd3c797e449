import Phrasebook.Accessor.Generation
import Phrasebook.Catalog.Assembly
import Phrasebook.Compile.Settings
import Phrasebook.Registry
import Phrasebook.Source.Tree

/-!
# Compilation

From settings, contracts and a loader to the tables of the contracts. The contracts are taken in order. A file is
loaded once, for the first contract that asks for it; the first error ends the run.
-/

namespace Phrasebook

open Phrasebook.Name

/-! ## Loaders -/

/-- What a loader answers. -/
inductive SourceLookup where
  | found (path : String) (tree : SourceTree)
  /-- There is no source. -/
  | missing (path : String)
  /-- There is a source that cannot be read. -/
  | failed (path : String) (cause : SourceError)
  deriving Repr

/-- Gives the source of a locale and a file; the answer depends on the question alone. -/
abbrev SourceLoader := String → String → SourceLookup

/-! ## Results -/

/-- What a run yields. -/
structure CompileOutput where
  settings : Settings
  /-- The tables, in the order of the contracts. -/
  tables : List Table
  /-- What was found, in the order of finding. -/
  issues : List Issue
  /-- The number of sources that were read. -/
  sourceFiles : Nat
  deriving DecidableEq

namespace CompileOutput

/-- Whether something is missing that cannot be made up for. -/
def hasErrors (o : CompileOutput) : Bool := o.issues.any fun i => i.severity = .error

/-- What a run that ends well logs of the issues, one after the other. -/
def log (o : CompileOutput) : List LogRecord := o.issues.map Issue.logRecord

def registry (o : CompileOutput) : Registry :=
  .ofTables o.settings.managerName o.settings.locales o.settings.defaultLocale o.settings.properties o.tables

end CompileOutput

namespace Compile

/-! ## Files -/

/-- What the locales have of one file. -/
structure FileSources where
  /-- The phrases of the locales that have a source. -/
  entries : List LocaleEntries
  /-- The other locales, with the paths where a source was looked for. -/
  missing : List (String × String)
  deriving DecidableEq

/-- Loads a file in every locale, in order. -/
def loadFile (loader : SourceLoader) (file : String) : List String → Except CompileError FileSources
  | [] => .ok ⟨[], []⟩
  | locale :: locales => match loader locale file with
    | .failed path cause => .error (.source path cause)
    | .found path tree => (loadFile loader file locales).map fun r =>
        { r with entries := (LocaleEntries.ofTree locale path tree).named :: r.entries }
    | .missing path => (loadFile loader file locales).map fun r =>
        { r with missing := (locale, path) :: r.missing }

/-- What is reported of the locales without a source. -/
def missingIssues (contract file : String) (missing : List (String × String)) : List Issue :=
  missing.map fun m => .missingSource contract m.1 file m.2

/-! ## One contract -/

/-- The table of a contract, from its declarations and the phrases of its file, with what is reported of them. -/
def buildTable (s : Settings) (contract file : String) (ds : List Declaration)
    (locales : List LocaleEntries) : Except CompileError (Table × List Issue) := do
  let resolution ← SchemaResolution.resolve contract ds locales
  let assembly := Assembly.assemble ⟨contract, file, s.defaultLocale, s.properties⟩ resolution.schemas locales
  let table ← Table.ofCatalog assembly.catalog ds s.locales s.defaultLocale
  return (table, resolution.issues ++ assembly.issues)

/-! ## All contracts -/

/-- How far a run has come. -/
structure Progress where
  /-- The phrases of the files loaded so far. -/
  loaded : KeyMap (List LocaleEntries)
  /-- The tables made so far. -/
  tables : List Table
  /-- What was found so far. -/
  issues : List Issue
  /-- The number of sources read so far. -/
  sourceFiles : Nat
  deriving DecidableEq

def Progress.start : Progress := ⟨.empty, [], [], 0⟩

/-- The progress with a file loaded for a contract, and the phrases of the file. -/
def Progress.load (p : Progress) (s : Settings) (loader : SourceLoader) (contract file : String) :
    Except CompileError (List LocaleEntries × Progress) :=
  match p.loaded.get? file with
  | some entries => .ok (entries, p)
  | none => (loadFile loader file s.locales).map fun r =>
    (r.entries, { p with
      loaded := p.loaded.insert file r.entries
      issues := p.issues ++ missingIssues contract file r.missing
      sourceFiles := p.sourceFiles + r.entries.length })

def Progress.step (s : Settings) (loader : SourceLoader) (p : Progress) (c : Contract) :
    Except CompileError Progress :=
  if p.tables.any fun t => t.contract == c.name then .error (.duplicateContract c.name)
  else do
    let file := c.fileName s.package
    -- A faulty method is told before a faulty source.
    let ds ← c.declarations
    let (locales, p) ← p.load s loader c.name file
    let (table, issues) ← buildTable s c.name file ds locales
    return { p with tables := p.tables ++ [table], issues := p.issues ++ issues }

def Progress.run (s : Settings) (loader : SourceLoader) (p : Progress) :
    List Contract → Except CompileError Progress
  | [] => .ok p
  | c :: cs => match p.step s loader c with
    | .error e => .error e
    | .ok p => p.run s loader cs

/-- Fails when two contracts of different names get one module. -/
def checkModules (contracts : List Contract) : Except CompileError Unit :=
  match firstCollision? ofContract (contracts.map (·.name)) with
  | none => .ok ()
  -- Two contracts of one name are told when the second one is taken.
  | some c => if c.first = c.second then .ok () else .error (.identifierCollision .contracts c)

def compile (s : Settings) (contracts : List Contract) (loader : SourceLoader) :
    Except CompileError CompileOutput := do
  s.validate
  checkModules contracts
  let p ← Progress.start.run s loader contracts
  return ⟨s, p.tables, p.issues, p.sourceFiles⟩

end Compile

end Phrasebook
