import Phrasebook.Compile.Run
import Phrasebook.Config.Validation
import Phrasebook.Contract.Json
import Phrasebook.Files.Disk
import Phrasebook.Path
import Phrasebook.Project.Error
import Phrasebook.Source.Reader

/-!
# Projects

A project is its configuration, the directory it is configured in, and its contracts. To compile it, all sources
that may be asked for are read, and the compilation goes on from what was read.

The configuration is a file in the directory of the project or in one around it. The search for it goes outwards and
ends at the first directory that holds a version repository, whether or not that one is configured.
-/

namespace Phrasebook

variable {m : Type → Type} [Monad m]

/-! ## Search for a configuration -/

def configFileName : String := ".loccatrc.json"

/-- The name that marks the directory of a version repository. -/
def repositoryName : String := ".git"

/-- The first configuration file in a list of directories. -/
def findConfigIn (files : FileAccess m) : List String → m (Option String)
  | [] => return none
  | directory :: directories => do
    let path := Path.joined directory configFileName
    if ← files.exists? path then return some path
    else if ← files.exists? (Path.joined directory repositoryName) then return none
    else findConfigIn files directories

/-- The configuration file of the project that a directory belongs to. -/
def findConfig (files : FileAccess m) (start : String) : m (Option String) :=
  findConfigIn files (Path.ancestors start)

/-! ## Projects -/

/-- A project. -/
structure Project where
  config : Config
  /-- The directory of the configuration. -/
  root : String
  contracts : List Contract
  deriving DecidableEq

/-- What a command says of the project it is for. -/
structure ProjectOptions where
  /-- The directory where the search for a configuration begins, when it is not the current one. -/
  path : Option String
  /-- A default locale that goes before the configured one. -/
  defaultLocale : Option String
  /-- Whether to tell more than usual. -/
  verbose : Bool
  deriving DecidableEq, Repr

namespace Project

/-! ## Loading -/

def decodeConfig (path : String) : Option String → Except ProjectError Config
  | none => .error (.configUnreadable path)
  | some text => match Config.read? text with
    | none => .error (.configMalformed path)
    | some c => match c.validate with
      | .error fault => .error (.configInvalid path fault)
      | .ok () => .ok c

def withDefault (c : Config) : Option String → Except ProjectError Config
  | none => .ok c
  | some locale =>
    let c := { c with defaultLocale := some locale }
    match c.validate with
    | .error fault => .error (.overrideInvalid fault)
    | .ok () => .ok c

def decodeContracts (path : String) : Option String → Except ProjectError (List Contract)
  | none => .error (.contractsUnreadable path)
  | some text => match ContractSet.read? text with
    | none => .error (.contractsMalformed path)
    | some set => .ok set.contracts

/-- The configuration of a directory and the directory it is in; it is the default one where there is no file. -/
def loadConfig (files : FileAccess m) (start : String) : m (Except ProjectError (Config × String)) := do
  match ← findConfig files start with
  | none => return .ok (.default, start)
  | some path =>
    let text ← files.readText? path
    return (decodeConfig path text).map fun c => (c, (Path.parent? path).getD start)

/-- The contracts of a file; there are none where there is no file. -/
def loadContracts (files : FileAccess m) (path : String) : m (Except ProjectError (List Contract)) := do
  if ← files.exists? path then return decodeContracts path (← files.readText? path)
  else return .ok []

/-- The directory where the search for a configuration begins. -/
def startOf (files : FileAccess m) (o : ProjectOptions) : m String :=
  match o.path with
  | some path => return path
  | none => files.currentDirectory

/-- The project that options speak of. -/
def load (files : FileAccess m) (o : ProjectOptions) : m (Except ProjectError Project) := do
  let start ← startOf files o
  match ← loadConfig files start with
  | .error e => return .error e
  | .ok (c, root) => match withDefault c o.defaultLocale with
    | .error e => return .error e
    | .ok c => return (← loadContracts files (c.contractsPath root)).map fun contracts => ⟨c, root, contracts⟩

/-! ## Sources -/

/-- What is read at the place of a source. -/
inductive SourceFile where
  /-- There is no file. -/
  | missing
  /-- There is a file that is no text that can be read. -/
  | unreadable
  | text (content : String)
  deriving DecidableEq, Repr

def readSource (files : FileAccess m) (path : String) : m SourceFile := do
  if (← files.kind? path) = some .file then
    match ← files.readText? path with
    | some content => return .text content
    | none => return .unreadable
  else return .missing

/-- The paths where a compilation looks for sources. -/
def sourcePaths (p : Project) : List String :=
  p.contracts.flatMap fun c =>
    p.config.locales.map fun locale => p.config.sourcePath p.root locale (c.fileName p.config.package)

def readSources (files : FileAccess m) : List String → m (KeyMap SourceFile)
  | [] => return .empty
  | path :: paths => do
    let source ← readSource files path
    return (← readSources files paths).insert path source

/-- The source that a file at a path holds. -/
def lookupOf (path : String) : SourceFile → SourceLookup
  | .missing => .missing path
  | source => match SourceFormat.ofPath? path, source with
    | none, _ => .failed path .unknownFormat
    | some format, .text content => match SourceTree.read format content with
      | .ok tree => .found path tree
      | .error cause => .failed path cause
    | some _, _ => .failed path .unreadable

def loader (p : Project) (sources : KeyMap SourceFile) : SourceLoader := fun locale file =>
  let path := p.config.sourcePath p.root locale file
  lookupOf path ((sources.get? path).getD .missing)

/-! ## Compilation -/

def compileFrom (p : Project) (sources : KeyMap SourceFile) : Except CompileError CompileOutput := do
  let settings ← p.config.settings
  Compile.compile settings p.contracts (p.loader sources)

def compile (files : FileAccess m) (p : Project) : m (Except CompileError CompileOutput) := do
  return p.compileFrom (← readSources files p.sourcePaths)

end Project

end Phrasebook
