import Phrasebook.Accessor.Table
import Phrasebook.Emission.Expression

/-!
# The module of a contract

What is generated for the table of a contract: a function for each accessor, a function that renders a key by name,
and a function for each method, which calls that of its key.
-/

namespace Phrasebook

open Phrasebook.Name Phrasebook.Text

/-! ## Types -/

/-- A parameter of a function. -/
structure FunctionParameter where
  ident : String
  type : String
  deriving DecidableEq, Repr

def FunctionParameter.code (p : FunctionParameter) : String := p.ident ++ ": " ++ p.type

/-- The function of an accessor. -/
structure AccessorFunction where
  key : String
  ident : String
  parameters : List FunctionParameter
  /-- The text in each locale that has a branch of its own, which is given by its variant. -/
  arms : List (String × TextExpression)
  /-- The text in the other locales. -/
  fallback : TextExpression
  deriving DecidableEq, Repr

/-- An argument that is read by name. -/
structure NamedArgument where
  key : String
  name : String
  type : ParamType
  deriving DecidableEq, Repr

/-- A key that can be rendered by name. -/
structure NamedCall where
  key : String
  function : String
  arguments : List NamedArgument
  deriving DecidableEq, Repr

/-- The function of a method. -/
structure MethodFunction where
  key : String
  ident : String
  parameters : List FunctionParameter
  /-- The function of the accessor of the key. -/
  function : String
  arguments : List String
  deriving DecidableEq, Repr

/-- The module of a contract. -/
structure ContractModule where
  contract : String
  fileName : String
  ident : String
  accessors : List AccessorFunction
  /-- The keys that can be rendered by name. -/
  calls : List NamedCall
  /-- The functions of the methods, unless the contract has no methods. -/
  methods : Option (List MethodFunction)
  deriving DecidableEq, Repr

/-! ## From tables -/

/-- The parameter that every accessor begins with. -/
def localeParameter : FunctionParameter := ⟨"locale", "Locale"⟩

def propertiesParameter : FunctionParameter := ⟨"props", "&Properties"⟩

def Accessor.function (a : Accessor) : String := escaped a.ident

def AccessorFunction.ofAccessor (properties : KeyMap ParamType) (a : Accessor) : AccessorFunction where
  key := a.key
  ident := a.function
  parameters := localeParameter :: propertiesParameter ::
    a.schema.map fun p => ⟨ofParameter p.name, p.type.borrowedType⟩
  arms := a.branches.map fun b => (ofLocale b.locale, .ofTemplate a.schema properties b.template)
  fallback := match a.fallback with
    | some b => .ofTemplate a.schema properties b.template
    | none => .ofKey a.key

/-- The key of an accessor as it can be rendered by name. -/
def NamedCall.ofAccessor (a : Accessor) : NamedCall :=
  ⟨a.key, a.function, a.schema.map fun p => ⟨a.key, p.name, p.type⟩⟩

namespace MethodFunction

/-- The type of the parameter of a method at a place: the locale has one of its own, an argument has that of the
parameter of its key, and any other parameter may be anything. -/
def parameterType (f : Forwarding) (a : Accessor) (place : Nat) (name : String) : String :=
  if place = f.localeSlot then "Locale"
  else match a.schema.find? name with
    | some p => if f.arguments.contains place then p.type.borrowedType else "impl Sized"
    | none => "impl Sized"

def identAt (f : Forwarding) (place : Nat) : String := ofParameter ((f.parameters[place]?).getD "")

/-- The function of a method whose key has an accessor. -/
def ofForwarding (f : Forwarding) (a : Accessor) : MethodFunction where
  key := f.key
  ident := ofMethod f.name
  parameters := propertiesParameter ::
    f.parameters.zipIdx.map fun p => ⟨ofParameter p.1, parameterType f a p.2 p.1⟩
  function := a.function
  arguments := identAt f f.localeSlot :: "props" :: f.arguments.map (identAt f)

end MethodFunction

def ContractModule.ofTable (properties : KeyMap ParamType) (t : Table) : ContractModule where
  contract := t.contract
  fileName := t.fileName
  ident := ofContract t.contract
  accessors := t.accessors.values.map (.ofAccessor properties)
  calls := t.accessors.values.map .ofAccessor
  methods :=
    if t.methods.isEmpty then none
    else some (t.methods.values.filterMap fun f =>
      (t.accessors.get? f.key).map (MethodFunction.ofForwarding f))

/-! ## Code -/

/-- The first line of a function that makes a text. -/
def functionHead (ident : String) (parameters : List FunctionParameter) : String :=
  "pub fn " ++ callText ident (parameters.map FunctionParameter.code) ++ " -> String \x7b"

def armCode (pattern result : String) : String := pattern ++ " => " ++ result ++ ","

def localePath (variant : String) : String := "Locale::" ++ variant

namespace AccessorFunction

/-- The lines that make the text. -/
def body (f : AccessorFunction) : List CodeLine :=
  if f.arms.isEmpty then [⟨2, f.fallback.code⟩]
  else
    ⟨2, "match locale \x7b"⟩ ::
      f.arms.map (fun arm => ⟨3, armCode (localePath arm.1) arm.2.code⟩)
      ++ [⟨3, armCode "_" f.fallback.code⟩, ⟨2, "\x7d"⟩]

def lines (f : AccessorFunction) : List CodeLine :=
  [⟨1, "/// \x60" ++ f.key ++ "\x60"⟩, ⟨1, functionHead f.ident f.parameters⟩] ++ f.body ++ [⟨1, "\x7d"⟩]

end AccessorFunction

def NamedArgument.code (a : NamedArgument) : String :=
  callText (if a.type.nullable then "super::nullable" else "super::typed")
    ["args", quoted a.key, quoted a.name, quoted a.type.display, "super::" ++ a.type.reader] ++ "?"

/-- The arm of a key that can be rendered by name. -/
def NamedCall.code (c : NamedCall) : String :=
  armCode (quoted c.key)
    (callText "Ok" [callText c.function ("locale" :: "props" :: c.arguments.map NamedArgument.code)])

/-- The lines of the function that renders a key by name. -/
def namedCallLines (calls : List NamedCall) : List CodeLine :=
  [⟨1, "/// Renders a key by name, reading arguments from a JSON object."⟩,
    ⟨1, "pub fn render_by_name("⟩,
    ⟨2, "name: &str,"⟩,
    ⟨2, "locale: Locale,"⟩,
    ⟨2, "props: &Properties,"⟩,
    ⟨2, "args: &super::Args,"⟩,
    ⟨1, ") -> Result<String, super::LookupError> \x7b"⟩,
    ⟨2, "match name \x7b"⟩]
  ++ calls.map (fun c => ⟨3, c.code⟩)
  ++ [⟨3, "_ => Err(super::LookupError::KeyNotFound \x7b"⟩,
    ⟨4, "key: name.to_string(),"⟩,
    ⟨3, "\x7d),"⟩,
    ⟨2, "\x7d"⟩,
    ⟨1, "\x7d"⟩]

def MethodFunction.lines (f : MethodFunction) : List CodeLine :=
  [⟨2, "/// Forwards to \x60" ++ f.key ++ "\x60."⟩,
    ⟨2, functionHead f.ident f.parameters⟩,
    ⟨3, callText ("super::" ++ f.function) f.arguments⟩,
    ⟨2, "\x7d"⟩]

def methodLines (methods : List MethodFunction) : List CodeLine :=
  [.blank, ⟨1, "pub mod methods \x7b"⟩, ⟨2, "use super::super::\x7bLocale, Properties\x7d;"⟩]
  ++ methods.flatMap (fun f => .blank :: f.lines)
  ++ [⟨1, "\x7d"⟩]

def ContractModule.lines (m : ContractModule) : List CodeLine :=
  [⟨0, "/// \x60" ++ m.contract ++ "\x60, read from \x60" ++ m.fileName ++ "\x60."⟩,
    ⟨0, "pub mod " ++ m.ident ++ " \x7b"⟩,
    ⟨1, "use super::\x7bLocale, Properties\x7d;"⟩]
  ++ m.accessors.flatMap (fun f => .blank :: f.lines)
  ++ .blank :: namedCallLines m.calls
  ++ (m.methods.map methodLines).getD []
  ++ [⟨0, "\x7d"⟩]

end Phrasebook
