import Phrasebook.Json.Printer
import Phrasebook.Parameter.Type

/-!
# Values for parameters

Which values a parameter of a type accepts, and how a value is shown in a template. A value that is accepted stays
as it is; a type that admits null also accepts that there is no value.
-/

namespace Phrasebook

/-! ## Kinds of value -/

/-- What stands in the place of a value. -/
inductive Found where
  /-- There is no value. -/
  | nothing
  | null
  /-- A truth value. -/
  | boolean
  /-- A number with fraction or exponent. -/
  | float
  /-- A whole number that does not fit in 64 bits with a sign. -/
  | wideInteger
  /-- A whole number. -/
  | integer
  | text
  /-- A list. -/
  | array
  /-- Values under names. -/
  | object
  deriving DecidableEq, Repr

namespace Found

/-- The wording in an error. -/
def name : Found → String
  | nothing => "nothing"
  | null => "null"
  | boolean => "boolean"
  | float => "float"
  | wideInteger => "out-of-range integer"
  | integer => "integer"
  | text => "text"
  | array => "array"
  | object => "object"

def ofNumber : JsonNumber → Found
  | .float _ => float
  | .integer n => if (JsonNumber.integer n).asInteger?.isSome then integer else wideInteger

/-- The kind of a value. -/
def ofJson : Json → Found
  | .null => null
  | .bool _ => boolean
  | .number n => ofNumber n
  | .string _ => text
  | .array _ => array
  | .object _ => object

end Found

/-! ## Acceptance -/

namespace ParamType

/-- Whether a value other than null is accepted by a kind. -/
def kindAccepts (kind : Builtin) (v : Json) : Bool :=
  match kind, v with
  | .integer, .number n => n.asInteger?.isSome
  | .float, .number _ => true
  | .boolean, .bool _ => true
  | .text, .string _ => true
  | .any, _ => true
  | _, _ => false

/-- Whether a value is accepted by a type that does not admit null. -/
def acceptsValue (t : ParamType) (v : Json) : Bool :=
  match v, t with
  | .null, _ => false
  | v, .builtin kind _ => kindAccepts kind v
  | _, .named .. => true

/-- The value that a parameter of a type gets, or what was found instead of one. -/
def coerce (t : ParamType) : Option Json → Except Found Json
  | none => if t.nullable then .ok .null else .error .nothing
  | some .null => if t.nullable then .ok .null else .error .null
  | some v => if t.acceptsValue v then .ok v else .error (.ofJson v)

end ParamType

/-! ## Display -/

/-- The text of a value in a template: a text is itself, and any other value is written without blanks. -/
def Json.display : Json → String
  | .string s => s
  | v => v.compact

end Phrasebook
