import Phrasebook.Text.Basic
import Phrasebook.Text.Case
import Phrasebook.Basic

/-!
# Parameter types

A parameter type is a built-in kind or a named type with arguments, and may admit null. A type is written as one of
the words of a kind in any case, as a name, or as a name with arguments between `<` and `>` or `[` and `]`; a
question mark behind it admits null.

- `splitTopLevel` separates a text at the commas that stand in no bracket.
- `ParamType.parse` reads a type, `ParamType.display` writes one.
-/

namespace Phrasebook

open Phrasebook.Text

/-! ## Types -/

/-- The kinds of value that a parameter can ask for. -/
inductive Builtin where
  /-- Whole numbers of 64 bits. -/
  | integer
  /-- Numbers. -/
  | float
  /-- Truth values. -/
  | boolean
  | text
  /-- Everything. -/
  | any
  deriving DecidableEq, Repr

/-- The type of a parameter. -/
inductive ParamType where
  | builtin (kind : Builtin) (nullable : Bool)
  /-- A type of the host program, possibly with arguments. -/
  | named (name : String) (arguments : List ParamType) (nullable : Bool)
  deriving Repr, Inhabited

/-- Why a text is no type. -/
inductive TypeError where
  /-- There is nothing to read. -/
  | empty
  /-- The brackets of the text do not match. -/
  | unbalanced (text : String)
  /-- There is nothing between the brackets. -/
  | missingArguments (text : String)
  deriving DecidableEq, Repr

def TypeError.message : TypeError → String
  | .empty => "empty type"
  | .unbalanced text => "unbalanced brackets in '" ++ text ++ "'"
  | .missingArguments text => "missing type arguments in '" ++ text ++ "'"

/-! ## Equality -/

namespace ParamType

mutual

/-- Equality of types is decidable. -/
def decEq : (a b : ParamType) → Decidable (a = b)
  | .builtin k n, .builtin k' n' =>
    if h : k = k' ∧ n = n' then isTrue (by rw [h.1, h.2])
    else isFalse fun e => h (by injection e; constructor <;> assumption)
  | .builtin .., .named .. => isFalse fun e => nomatch e
  | .named .., .builtin .. => isFalse fun e => nomatch e
  | .named s as n, .named s' as' n' =>
    match decEqList as as' with
    | isTrue ha =>
      if h : s = s' ∧ n = n' then isTrue (by rw [h.1, h.2, ha])
      else isFalse fun e => h (by injection e; constructor <;> assumption)
    | isFalse ha => isFalse fun e => ha (by injection e)

/-- Equality of lists of types is decidable. -/
def decEqList : (as bs : List ParamType) → Decidable (as = bs)
  | [], [] => isTrue rfl
  | [], _ :: _ => isFalse fun e => nomatch e
  | _ :: _, [] => isFalse fun e => nomatch e
  | a :: as, b :: bs =>
    match decEq a b, decEqList as bs with
    | isTrue h, isTrue h' => isTrue (by rw [h, h'])
    | isFalse h, _ => isFalse fun e => h (by injection e)
    | _, isFalse h' => isFalse fun e => h' (by injection e)

end

instance : DecidableEq ParamType := decEq

/-- Whether null is admitted. -/
def nullable : ParamType → Bool
  | .builtin _ n => n
  | .named _ _ n => n

/-- The type that also admits null. -/
def orNull : ParamType → ParamType
  | .builtin k _ => .builtin k true
  | .named s as _ => .named s as true

end ParamType

/-! ## Brackets -/

/-- An opening bracket of a type. -/
def isOpening (c : Char) : Bool := c = '<' || c = '['

/-- A closing bracket of a type. -/
def isClosing (c : Char) : Bool := c = '>' || c = ']'

/-- The closing bracket that belongs to an opening one. -/
def closingOf (c : Char) : Char := if c = '<' then '>' else ']'

/-- The parts of a text with a character put in front of the first one. -/
def consFirst (c : Char) : List (List Char) → List (List Char)
  | [] => [[c]]
  | p :: ps => (c :: p) :: ps

/-- The parts of a text between the commas that stand in no bracket, `depth` brackets being open before it. -/
def splitWithin (depth : Nat) : List Char → Option (List (List Char))
  | [] => if depth = 0 then some [[]] else none
  | c :: cs =>
    if isOpening c then (splitWithin (depth + 1) cs).map (consFirst c)
    else if isClosing c then
      if depth = 0 then none else (splitWithin (depth - 1) cs).map (consFirst c)
    else if c = ',' && depth = 0 then (splitWithin 0 cs).map ([] :: ·)
    else (splitWithin depth cs).map (consFirst c)

/-- The trimmed parts of a text between the commas that stand in no bracket, unless the brackets do not balance. -/
def splitTopLevel (s : List Char) : Option (List (List Char)) :=
  (splitWithin 0 s).map fun parts => parts.map trim

/-! ## Reading -/

namespace Builtin

def words : Builtin → List String
  | .integer => ["integer", "int", "long", "short", "byte", "i32", "i64", "u32", "u64"]
  | .float => ["float", "double", "f32", "f64"]
  | .boolean => ["boolean", "bool"]
  | .text => ["text", "string", "str", "char"]
  | .any => ["any"]

/-- All kinds. -/
def all : List Builtin := [.integer, .float, .boolean, .text, .any]

/-- The kind that a word stands for, in any ASCII case. -/
def ofWord? (word : List Char) : Option Builtin :=
  all.find? fun k => k.words.contains (String.ofList (word.map lowerAscii))

/-- The first word of a kind, which displays it. -/
def display : Builtin → String
  | .integer => "integer"
  | .float => "float"
  | .boolean => "boolean"
  | .text => "text"
  | .any => "any"

end Builtin

namespace ParamType

/-- What a trimmed text is, before its parts are read. -/
inductive Shape where
  | malformed (error : TypeError)
  /-- A type without arguments. -/
  | leaf (type : ParamType)
  /-- The text of a type, to which null is added. -/
  | optional (inner : List Char)
  /-- A name and the texts of its arguments. -/
  | generic (base : List Char) (parts : List (List Char))

/-- The shape of a text whose first bracket is an opening one, with the text before and behind that bracket. -/
def shapeOfGeneric (whole before : List Char) (opening : Char) (behind : List Char) : Shape :=
  let unbalanced := Shape.malformed (.unbalanced (String.ofList whole))
  -- The kind of bracket is looked at here only: between the two, brackets of both kinds count alike.
  if behind.getLast? ≠ some (closingOf opening) then unbalanced
  else if (trim before).isEmpty then unbalanced
  else match splitTopLevel behind.dropLast with
    | none => unbalanced
    | some parts =>
      if parts.all List.isEmpty then .malformed (.missingArguments (String.ofList whole))
      else .generic (trim before) parts

def shape (s : List Char) : Shape :=
  if s.isEmpty then .malformed .empty
  else match dropEnd? ['?'] s with
    | some inner => .optional inner
    | none =>
      if s = ['*'] then .leaf (.builtin .any false)
      else match s.dropWhile fun c => !isOpening c with
        | opening :: behind => shapeOfGeneric s (s.takeWhile fun c => !isOpening c) opening behind
        | [] =>
          if s.any fun c => isClosing c || c = ',' then .malformed (.unbalanced (String.ofList s))
          else match Builtin.ofWord? s with
            | some kind => .leaf (.builtin kind false)
            | none => .leaf (.named (String.ofList s) [] false)

/-- Reads a type, its brackets and question marks nested less than `fuel` deep. -/
def parseWithin : Nat → List Char → Except TypeError ParamType
  | 0, _ => .error .empty
  | fuel + 1, s => match shape (trim s) with
    | .malformed e => .error e
    | .leaf t => .ok t
    | .optional inner => (parseWithin fuel inner).map orNull
    | .generic base parts =>
      (traverse (parseWithin fuel) parts).map fun args => .named (String.ofList base) args false

/-- Reads a type. Each step into it shortens the text, so the length of the text bounds the depth. -/
def parseChars (s : List Char) : Except TypeError ParamType := parseWithin (s.length + 1) s

/-- Reads a type. -/
def parse (s : String) : Except TypeError ParamType := parseChars s.toList

/-! ## Writing -/

mutual

/-- The characters of a type in normal form. -/
def displayChars : ParamType → List Char
  | .builtin k n => k.display.toList ++ (if n then ['?'] else [])
  | .named s [] n => s.toList ++ (if n then ['?'] else [])
  | .named s (a :: as) n =>
    s.toList ++ '<' :: (displayChars a ++ displayRest as ++ '>' :: (if n then ['?'] else []))
termination_by structural t => t

/-- The characters of the arguments after the first one. -/
def displayRest : List ParamType → List Char
  | [] => []
  | a :: as => ',' :: ' ' :: (displayChars a ++ displayRest as)
termination_by structural as => as

end

/-- A type in normal form. -/
def display (t : ParamType) : String := String.ofList (displayChars t)

end ParamType

end Phrasebook
