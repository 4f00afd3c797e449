import Phrasebook.Accessor.Error
import Phrasebook.Parameter.List
import Phrasebook.Template
import Phrasebook.Basic

/-!
# Accessors

An accessor renders one key. It holds the templates of the locales other than the default one, and the template that
stands in for all other locales; where no locale has a template, the key itself is rendered.
-/

namespace Phrasebook

/-- The template of a locale. -/
structure Branch where
  locale : String
  template : Template
  deriving DecidableEq, Repr

/-- What renders one key. -/
structure Accessor where
  key : String
  ident : String
  /-- The parameters, in the order of a call. -/
  schema : ParameterList
  /-- The templates of locales other than the default one, in the order of the locales. -/
  branches : List Branch
  /-- The template of all other locales, if there is any. -/
  fallback : Option Branch
  deriving DecidableEq, Repr

/-- Where the values of properties come from. -/
abbrev PropertySource := String → Option Json

namespace Accessor

def select (a : Accessor) (locale : String) : Option Template :=
  ((a.branches.find? fun b => b.locale == locale).or a.fallback).map (·.template)

/-! ## Arguments -/

/-- The accepted value of a parameter. -/
def coerceArgument (a : Accessor) (p : Parameter) (v : Option Json) : Except LookupError Json :=
  (p.type.coerce v).mapError fun found => .argumentType a.key p.name (.value p.type) found

/-- The accepted values of arguments in the order of the parameters. -/
def checkArguments (a : Accessor) (args : List Json) : Except LookupError (List Json) :=
  if args.length ≠ a.schema.length then .error (.arity a.key a.schema.length args.length)
  else traverse (fun p => a.coerceArgument p.1 (some p.2)) (a.schema.zip args)

/-- The accepted values of arguments given by name; other names are not looked at. -/
def namedArguments (a : Accessor) (args : List (String × Json)) : Except LookupError (List Json) :=
  traverse (fun p => a.coerceArgument p (Json.field? p.name args)) a.schema

/-! ## Rendering -/

/-- The text of a placeholder: that of the parameter of its name, or else that of the property. -/
def resolve (a : Accessor) (args : List Json) (properties : PropertySource) (name : String) : Option String :=
  match a.schema.position? name with
  | some i => args[i]?.map Json.display
  | none => (properties name).map Json.display

def renderAccepted (a : Accessor) (locale : String) (args : List Json) (properties : PropertySource) :
    String :=
  match a.select locale with
  | none => a.key
  | some t => t.render (a.resolve args properties)

/-- The text of a locale with arguments in the order of the parameters. -/
def render (a : Accessor) (locale : String) (args : List Json) (properties : PropertySource) :
    Except LookupError String :=
  (a.checkArguments args).map fun accepted => a.renderAccepted locale accepted properties

end Accessor

end Phrasebook
