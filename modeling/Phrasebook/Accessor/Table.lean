import Phrasebook.Accessor.Basic
import Phrasebook.Basic

/-!
# Tables

The accessors of one contract by key, and its methods by name. There are three ways to render a key: with arguments
in order, with arguments by name, and by calling a method, whose arguments hold the locale too.
-/

namespace Phrasebook

/-- A method of a contract, which forwards to the accessor of its key. -/
structure Forwarding where
  name : String
  key : String
  /-- The names of all parameters, in the order of a call. -/
  parameters : List String
  /-- The place of the locale in a call. -/
  localeSlot : Nat
  /-- The place of each parameter of the key in a call. -/
  arguments : List Nat
  deriving DecidableEq, Repr

/-- What can be called of a contract. -/
structure Table where
  contract : String
  fileName : String
  locales : List String
  defaultLocale : String
  accessors : KeyMap Accessor
  methods : KeyMap Forwarding
  deriving DecidableEq

namespace Table

def checkLocale (t : Table) (locale : String) : Except LookupError Unit :=
  if t.locales.contains locale then .ok () else .error (.unsupportedLocale locale)

def lookup (t : Table) (key : String) : Except LookupError Accessor :=
  match t.accessors.get? key with
  | some a => .ok a
  | none => .error (.keyNotFound t.contract key)

/-- The text of a key with arguments in the order of its parameters. -/
def render (t : Table) (key locale : String) (args : List Json) (properties : PropertySource) :
    Except LookupError String := do
  t.checkLocale locale
  let a ← t.lookup key
  a.render locale args properties

def renderByName (t : Table) (key locale : String) (args : List (String × Json))
    (properties : PropertySource) : Except LookupError String := do
  t.checkLocale locale
  let a ← t.lookup key
  let accepted ← a.namedArguments args
  return a.renderAccepted locale accepted properties

/-- The locale among the arguments of a method. -/
def localeOf (f : Forwarding) (args : List Json) : Except LookupError String :=
  match args[f.localeSlot]? with
  | some (.string locale) => .ok locale
  | other => .error (.argumentType f.key ((f.parameters[f.localeSlot]?).getD "") .locale
      ((other.map Found.ofJson).getD .nothing))

/-- The text of the key of a method with all arguments of a call. -/
def invoke (t : Table) (method : String) (args : List Json) (properties : PropertySource) :
    Except LookupError String :=
  match t.methods.get? method with
  | none => .error (.methodNotFound t.contract method)
  | some f =>
    if args.length ≠ f.parameters.length then .error (.arity f.key f.parameters.length args.length)
    else do
      let locale ← localeOf f args
      t.render f.key locale (f.arguments.filterMap fun i => args[i]?) properties

end Table

end Phrasebook
