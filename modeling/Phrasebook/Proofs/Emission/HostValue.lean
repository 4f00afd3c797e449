import Phrasebook.Accessor.Coercion
import Phrasebook.Emission.Code
import Phrasebook.Proofs.Number.Plain

/-!
# Values of the generated module

What the support code of a generated module does with the values of the data format: its readers turn a value into
one of the module, and its helpers check an argument that is given by name.

- A reader refuses what is not of its kind; an argument that may be null is absent when it is null or not given.
- A number is read as an integer when it is one of 64 bits with a sign, and any number as the nearest one of the
  module's numbers with a fraction.

## Layers

- `reader?`, `readArgument?`: the functions of the support code, by their names.
- `ParamType.hostArgument?`: what they read for a type; by `isSome_hostArgument?_iff` they refuse exactly the values
  that the type does not accept.
-/

namespace Phrasebook

/-! ## §1 Values -/

/-- A value of the generated module. -/
inductive HostValue where
  | integer (value : Int)
  | float (value : Binary64)
  | boolean (value : Bool)
  | text (value : String)
  /-- A value of the data format, which is passed on as it is. -/
  | value (value : Json)

/-- An argument of the function of an accessor. -/
inductive HostArgument where
  | plain (value : HostValue)
  /-- A value that may be absent. -/
  | optional (value : Option HostValue)

/-- The number that a number of the data format is read as. -/
def JsonNumber.asFloat : JsonNumber → Binary64
  | .integer n => .ofInt n
  | .float x => x

/-- The text of a value in a format. -/
def HostValue.display : HostValue → String
  | integer n => String.ofList (JsonNumber.integerText n)
  | float x => String.ofList x.plainText
  | boolean b => String.ofList (Json.boolChars b)
  | text s => s
  | value v => v.compact

/-- The text of a value in a format, by the code that shows values of its kind. -/
def HostValue.inFormat : HostValue → String
  | .value v => v.display
  | x => x.display

/-! ## §2 Readers -/

namespace HostValue

def integer? : Json → Option HostValue
  | .number n => n.asInteger?.map integer
  | _ => none

def float? : Json → Option HostValue
  | .number n => some (float n.asFloat)
  | _ => none

def boolean? : Json → Option HostValue
  | .bool b => some (boolean b)
  | _ => none

def text? : Json → Option HostValue
  | .string s => some (text s)
  | _ => none

def any? : Json → Option HostValue
  | .null => none
  | v => some (value v)

end HostValue

/-- The function of the support code that reads a value, by its name. -/
def reader? (name : String) : Option (Json → Option HostValue) :=
  if name = "integer" then some HostValue.integer?
  else if name = "float" then some HostValue.float?
  else if name = "boolean" then some HostValue.boolean?
  else if name = "text" then some HostValue.text?
  else if name = "any" then some HostValue.any?
  else none

/-- What is read of a value that is given for a parameter, or nothing when it is refused. -/
def HostArgument.read? (nullable : Bool) (read : Json → Option HostValue) (given : Option Json) : Option HostArgument :=
  if nullable then
    match given with
    | none => some (.optional none)
    | some .null => some (.optional none)
    | some v => (read v).map fun h => .optional (some h)
  else (given.bind read).map .plain

/-- The function of the support code that checks an argument, by its name. -/
def readArgument? (helper : String) (read : Json → Option HostValue) (given : Option Json) :
    Option (Option HostArgument) :=
  if helper = "typed" then some (HostArgument.read? false read given)
  else if helper = "nullable" then some (HostArgument.read? true read given)
  else none

/-! ## §3 Types -/

/-- The reader of a kind. -/
def Builtin.read? : Builtin → Json → Option HostValue
  | .integer => HostValue.integer?
  | .float => HostValue.float?
  | .boolean => HostValue.boolean?
  | .text => HostValue.text?
  | .any => HostValue.any?

theorem reader?_display (kind : Builtin) : reader? kind.display = some kind.read? := by
  cases kind <;> rfl

namespace ParamType

variable (t : ParamType)

/-- The function that checks the arguments of a type. -/
def helper : String := if t.nullable then "nullable" else "typed"

/-- The argument that is read for a type. -/
def hostArgument? (given : Option Json) : Option HostArgument :=
  HostArgument.read? t.nullable t.builtinOf.read? given

theorem readArgument?_helper (given : Option Json) :
    readArgument? t.helper t.builtinOf.read? given = some (t.hostArgument? given) := by
  unfold helper hostArgument?
  cases t.nullable <;> rfl

/-- A reader takes the values that its type accepts. -/
theorem isSome_read? (v : Json) : (t.builtinOf.read? v).isSome = t.acceptsValue v := by
  cases t with
  | builtin kind nullable =>
    cases kind <;> cases v <;> simp [builtinOf, Builtin.read?, HostValue.integer?, HostValue.float?,
      HostValue.boolean?, HostValue.text?, HostValue.any?, acceptsValue, kindAccepts]
  | named name arguments nullable => cases v <;> rfl

theorem acceptsValue_null : t.acceptsValue .null = false := by
  cases t <;> rfl

/-- Of the values other than null, a type accepts those that its reader takes. -/
theorem coerce_of_ne_null {v : Json} (h : v ≠ .null) :
    t.coerce (some v) = if t.acceptsValue v then .ok v else .error (.ofJson v) := by
  cases v with
  | null => exact absurd rfl h
  | _ => rfl

theorem hostArgument?_of_ne_null {v : Json} (h : v ≠ .null) :
    t.hostArgument? (some v)
      = (t.builtinOf.read? v).map fun x => if t.nullable then .optional (some x) else .plain x := by
  unfold hostArgument? HostArgument.read?
  cases t.nullable with
  | false => rfl
  | true =>
    cases v with
    | null => exact absurd rfl h
    | _ => rfl

/-- **Arguments** are refused in the generated module exactly when their type does not accept them. -/
theorem isSome_hostArgument?_iff (given : Option Json) :
    (t.hostArgument? given).isSome = true ↔ ∃ v, t.coerce given = .ok v := by
  -- A value that is not given or null is refused unless the type admits null.
  have hnull : t.builtinOf.read? .null = none := by
    rw [← Option.isNone_iff_eq_none, ← Option.not_isSome, isSome_read?, acceptsValue_null]
    rfl
  cases given with
  | none => cases h : t.nullable <;> simp [hostArgument?, HostArgument.read?, coerce, h]
  | some v =>
    by_cases hv : v = .null
    · subst hv
      cases h : t.nullable <;> simp [hostArgument?, HostArgument.read?, coerce, h, hnull]
    · rw [coerce_of_ne_null t hv, hostArgument?_of_ne_null t hv, Option.isSome_map, isSome_read?]
      cases t.acceptsValue v <;> simp

end ParamType

end Phrasebook
