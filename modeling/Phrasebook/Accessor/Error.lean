import Phrasebook.Accessor.Coercion

/-!
# Why a phrase cannot be rendered
-/

namespace Phrasebook

/-- What an argument should have been. -/
inductive Expected where
  | value (type : ParamType)
  | locale
  deriving DecidableEq

/-- The wording in an error. -/
def Expected.text : Expected → String
  | .value type => type.display
  | .locale => "locale"

/-- Why a phrase cannot be rendered, or a property not be read. -/
inductive LookupError where
  | keyNotFound (contract key : String)
  | argumentType (key parameter : String) (expected : Expected) (found : Found)
  /-- The number of arguments is not the one of the parameters. -/
  | arity (key : String) (expected found : Nat)
  | providerNotFound (contract : String)
  /-- The locale is none of the known ones. -/
  | unsupportedLocale (locale : String)
  | methodNotFound (contract method : String)
  | propertyNotDeclared (name : String)
  /-- The value of a property is not accepted. -/
  | propertyType (name : String) (expected : ParamType) (found : Found)
  deriving DecidableEq

def LookupError.message : LookupError → String
  | keyNotFound contract key => "localization '" ++ key ++ "' not found in " ++ contract
  | argumentType key parameter expected found =>
    "argument '" ++ parameter ++ "' of '" ++ key ++ "' expects " ++ expected.text
      ++ ", found " ++ found.name
  | arity key expected found =>
    "'" ++ key ++ "' takes " ++ toString expected ++ " argument(s), got " ++ toString found
  | providerNotFound contract => "no generated provider for contract '" ++ contract ++ "'"
  | unsupportedLocale locale =>
    "locale '" ++ locale ++ "' is not part of the generated locale set; regenerate the catalog"
  | methodNotFound contract method => "method '" ++ method ++ "' is not declared on " ++ contract
  | propertyNotDeclared name => "property '" ++ name ++ "' is not declared"
  | propertyType name expected found =>
    "property '" ++ name ++ "' expects " ++ expected.display ++ ", found " ++ found.name

end Phrasebook
