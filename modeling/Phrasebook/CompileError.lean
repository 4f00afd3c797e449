import Phrasebook.Name.Identifier
import Phrasebook.Parameter.List
import Phrasebook.Source.Tree

/-!
# Why contracts cannot be compiled

Each of these errors ends a run: no part of a catalog is made then.
-/

namespace Phrasebook

open Phrasebook.Text

/-! ## Causes -/

/-- What is wrong with a method. -/
inductive MethodFault where
  /-- It has no locale parameter, or more than one. -/
  | localeCount (found : Nat)
  | repeatedParameter (name : String)
  /-- The type of a parameter cannot be read. -/
  | invalidType (name : String) (cause : TypeError)
  | repeatedMethod
  | unknownKey (key : String)
  /-- It has no parameter of a name that its key asks for. -/
  | unknownParameter (name : String)
  deriving DecidableEq, Repr

def MethodFault.reason : MethodFault → String
  | .localeCount found => "expected exactly one locale parameter, found " ++ toString found
  | .repeatedParameter name => "parameter '" ++ name ++ "' is declared more than once"
  | .invalidType name cause => "parameter '" ++ name ++ "': " ++ cause.message
  | .repeatedMethod => "method is declared more than once"
  | .unknownKey key => "key '" ++ key ++ "' is not in the catalog"
  | .unknownParameter name => "no parameter named '" ++ name ++ "'"

/-- The names among which identifiers must be distinct. -/
inductive Scope where
  | locales
  | properties
  | contracts
  | keyParameters (contract key : String)
  | methodParameters (contract method : String)
  | methods (contract : String)
  deriving DecidableEq, Repr

def Scope.text : Scope → String
  | .locales => "locales"
  | .properties => "properties"
  | .contracts => "contracts"
  | .keyParameters contract key => "parameters of " ++ contract ++ " '" ++ key ++ "'"
  | .methodParameters contract method => "parameters of " ++ contract ++ "." ++ method
  | .methods contract => "methods of " ++ contract

/-- What is wrong with a configuration. -/
inductive ConfigFault where
  | noLocale
  /-- The locales of a configuration file are none. -/
  | noLocaleListed
  | blankLocale
  /-- A locale is listed twice. -/
  | repeatedLocale (locale : String)
  | unknownDefault (locale : String) (locales : List String)
  /-- The default locale of a configuration file is none of its locales. -/
  | unlistedDefault (locale : String) (locales : List String)
  /-- The location of sources does not depend on the file. -/
  | locationWithoutName (format : String)
  /-- The location of sources does not depend on the locale, although there are several. -/
  | locationWithoutLocale (format : String)
  | invalidProperty (name type : String) (cause : TypeError)
  deriving DecidableEq, Repr

/-- The wordings of the fault, outermost first. -/
def ConfigFault.chain : ConfigFault → List String
  | .noLocale => ["at least one locale is required"]
  | .noLocaleListed => ["'locales' must list at least one locale"]
  | .blankLocale => ["'locales' contains an empty locale"]
  | .repeatedLocale locale => ["Duplicate locale in 'locales': \"" ++ locale ++ "\""]
  | .unknownDefault locale locales =>
    ["default locale '" ++ locale ++ "' is not one of: " ++ join ", " locales]
  | .unlistedDefault locale locales =>
    ["'defaultLocale' \"" ++ locale ++ "\" is not listed in 'locales' (" ++ join ", " locales ++ ")"]
  | .locationWithoutName format => ["'locationFormat' must contain %name%: \"" ++ format ++ "\""]
  | .locationWithoutLocale format =>
    ["'locationFormat' must contain %locale% when more than one locale is configured: \""
      ++ format ++ "\""]
  | .invalidProperty name type cause =>
    ["Invalid type for property '" ++ name ++ "': \"" ++ type ++ "\"", cause.message]

def ConfigFault.message (f : ConfigFault) : String := join ": " f.chain

/-! ## Errors -/

/-- Why contracts cannot be compiled. -/
inductive CompileError where
  /-- A key is given different parameter lists. -/
  | schemaConflict (key : String) (definitions : List String)
  | invalidParameterList (key origin : String) (cause : ParameterListError)
  /-- A method does not stand for a phrase. -/
  | invalidDeclaration (contract method : String) (fault : MethodFault)
  | duplicateContract (contract : String)
  | accessorCollision (contract : String) (collision : Name.Collision)
  | identifierCollision (scope : Scope) (collision : Name.Collision)
  | source (path : String) (cause : SourceError)
  | invalidConfig (fault : ConfigFault)
  deriving DecidableEq, Repr

namespace CompileError

/-- The wording of a fault of a method. -/
def declarationText (contract method reason : String) : String :=
  "invalid declaration " ++ contract ++ "." ++ method ++ ": " ++ reason

def collisionText (scope : String) (c : Name.Collision) : String :=
  scope ++ ": '" ++ c.first ++ "' and '" ++ c.second ++ "' both map to identifier '" ++ c.ident ++ "'"

def sourceText (path reason : String) : String :=
  "failed to read localization source " ++ path ++ ": " ++ reason

def configText (reason : String) : String := "invalid configuration: " ++ reason

/-- The wording of the error. -/
def message : CompileError → String
  | schemaConflict key definitions =>
    "conflicting parameter lists for '" ++ key ++ "': " ++ join "; " definitions
  | invalidParameterList key origin cause =>
    "invalid parameter list for '" ++ key ++ "' in " ++ origin ++ ": " ++ cause.message
  | invalidDeclaration contract method fault => declarationText contract method fault.reason
  | duplicateContract contract => "contract '" ++ contract ++ "' is defined more than once"
  | accessorCollision contract c =>
    "keys '" ++ c.first ++ "' and '" ++ c.second ++ "' of " ++ contract
      ++ " both map to accessor '" ++ c.ident ++ "'"
  | identifierCollision scope c => collisionText scope.text c
  | source path cause => sourceText path cause.reason
  | invalidConfig fault => configText fault.message

def code : CompileError → String
  | schemaConflict .. => "schema-conflict"
  | invalidParameterList .. => "invalid-parameter-list"
  | invalidDeclaration .. => "invalid-declaration"
  | duplicateContract .. => "duplicate-contract"
  | accessorCollision .. => "accessor-collision"
  | identifierCollision .. => "identifier-collision"
  | source .. => "source"
  | invalidConfig .. => "invalid-config"

end CompileError

/-- Fails on the first two names of a scope that are mapped to one identifier. -/
def ensureDistinct (scope : Scope) (derive : String → String) (names : List String) :
    Except CompileError Unit :=
  match Name.firstCollision? derive names with
  | some c => .error (.identifierCollision scope c)
  | none => .ok ()

end Phrasebook
