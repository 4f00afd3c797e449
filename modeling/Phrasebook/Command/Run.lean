import Phrasebook.Command.Basic
import Phrasebook.Command.Result
import Phrasebook.Emission.Module

/-!
# Carrying out commands

A command loads its project and compiles it. A compilation that fails is a result like any other; what keeps a
command from being carried out at all is an error. Only two commands write, and each writes one file.
-/

namespace Phrasebook

open Phrasebook.Text

variable {m : Type → Type} [Monad m]

namespace Command

/-! ## Arguments -/

/-- Reads an argument: a name, and a value of the data format, or else a text. -/
def readArgument (text : String) : Except ProjectError (String × Json) :=
  match cut? '=' text.toList with
  | none => .error (.argumentWithoutValue text)
  | some (name, value) =>
    if name.isEmpty then .error (.argumentWithoutName text)
    else
      let value := String.ofList value
      .ok (String.ofList name, (Json.read? value).getD (.string value))

/-- Reads arguments; the last value of a name counts. -/
def readArguments (texts : List String) : Except ProjectError (List (String × Json)) :=
  (traverse readArgument texts).map fun args => args.foldl (fun fs a => Json.setField a.1 a.2 fs) []

/-! ## Commands that read -/

def keyCount (tables : List Table) : Nat := tables.foldl (fun n t => n + t.accessors.size) 0

def checked : Except CompileError CompileOutput → CommandResult
  | .error e => .failed (.check 0 0 0) e
  | .ok o => (CommandResult.finish (.check o.tables.length (keyCount o.tables) o.sourceFiles) o.issues).logging o

/-- The text of a key, with arguments by name and no property set. -/
def renderIn (r : Registry) (contract key : String) (locale : Option String) (args : List (String × Json)) :
    Except LookupError String := do
  let provider ← (r.provider Registry.fresh contract).1
  provider.renderByName Registry.fresh.bags key (locale.getD r.defaultLocale) args

def rendered (contract key : String) (locale : Option String) (args : List (String × Json)) :
    Except CompileError CompileOutput → CommandResult
  | .error e => .failed (.render none) e
  | .ok o => (CommandResult.finish (.render (some (renderIn o.registry contract key locale args))) []).logging o

def compileProject (files : FileAccess m) (o : ProjectOptions) :
    m (Except ProjectError (Except CompileError CompileOutput)) := do
  match ← Project.load files o with
  | .error e => return .error e
  | .ok p => return .ok (← p.compile files)

/-! ## Commands that write -/

/-- The path a module is written to: one without extension gets that of the module. -/
def modulePath (path : String) : String :=
  if (Path.extension? path).isNone then Path.addExtension path "rs" else path

/-- Makes the directory of a path, if the path names one. -/
def makeParent (files : FileAccess m) (path : String) : m (Except ProjectError Unit) := do
  match Path.parent? path with
  | none => return .ok ()
  | some parent =>
    if parent.isEmpty then return .ok ()
    else if ← files.makeDirectories parent then return .ok ()
    else return .error (.directoryNotMade parent)

/-- Writes a text to a path. -/
def writeFile (files : FileAccess m) (path text : String) : m (Except ProjectError Unit) := do
  if ← files.writeText path text then return .ok () else return .error (.fileNotWritten path)

def moduleText (o : CompileOutput) : String := (GeneratedModule.ofTables o.settings o.tables).text

/-- The result of generating a module, to a file if there is a path for it. -/
def generated (files : FileAccess m) (output : Option String) :
    Except CompileError CompileOutput → m (Except ProjectError CommandResult)
  | .error e => return .ok (.failed (.generate none none 0 0) e)
  | .ok o => do
    let summary (code path : Option String) : CommandResult :=
      (CommandResult.finish (.generate code path o.tables.length (keyCount o.tables)) o.issues).logging o
    match output with
    | none => return .ok (summary (some (moduleText o)) none)
    | some path =>
      let path := modulePath path
      match ← makeParent files path with
      | .error e => return .error e
      | .ok () => return (← writeFile files path (moduleText o)).map fun _ => summary none (some path)

/-- Writes the default configuration, unless something is there already. -/
def initialized (files : FileAccess m) (directory : Option String) : m (Except ProjectError CommandResult) := do
  let path := (directory.map fun d => Path.joined d configFileName).getD configFileName
  if ← files.exists? path then return .ok (.finish (.init path true) [])
  else return (← writeFile files path Config.defaultText).map fun _ => .finish (.init path false) []

/-! ## All commands -/

/-- Carries out a command. -/
def run (files : FileAccess m) : Command → m (Except ProjectError CommandResult)
  | check o => return (← compileProject files o).map checked
  | render contract key locale arguments o => match readArguments arguments with
    | .error e => return .error e
    | .ok args => return (← compileProject files o).map (rendered contract key locale args)
  | generate output o => do
    match ← compileProject files o with
    | .error e => return .error e
    | .ok result => generated files output result
  | init directory => initialized files directory

end Command

end Phrasebook
