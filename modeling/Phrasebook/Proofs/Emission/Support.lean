import Phrasebook.Emission.Support
import Phrasebook.Proofs.Emission.HostCode

/-!
# Meaning of the support code

The functions of the support code, as they are read off its lines, and what their calls come to: the readers take the
values of their kinds, and the functions that check an argument refuse it with the key, the parameter and the type that
they are given.

## Layers

- `supportCode`: the functions of the lines.
- `supportCode_of_mem`: which functions these are.
- `call?_reader`, `call?_checking`: what the readers and the functions that check an argument come to.
-/

namespace Phrasebook

/-! ## §1 Reading the lines -/

/-- The functions of lines of code. -/
def HostCode.ofLines (lines : List String) : HostCode := HostFunction.named? (lines.map String.toList)

/-- The functions of the support code. -/
def supportCode : HostCode := .ofLines supportLines

/-- The names that paths begin with, `inPath` being whether a path goes on here. -/
def pathHeads : Bool → List Token → List String
  | inPath, .word w :: .mark ':' :: .mark ':' :: ts =>
    if inPath then pathHeads true ts else w :: pathHeads true ts
  | _, _ :: ts => pathHeads false ts
  | _, [] => []

/-- The names that the paths in lines of code begin with. -/
def headsOfLines (lines : List String) : List String := pathHeads false ((lines.map String.toList).flatMap lex)

namespace SupportCode

/-- A function that calls one method of a value. -/
def reading (method : String) : HostFunction := ⟨["value"], .method (.name "value") method []⟩

def any : HostFunction :=
  ⟨["value"], .method (.negated (.method (.name "value") "is_null" [])) "then_some" [.name "value"]⟩

/-- The parameters of the functions that check an argument. -/
def checkParameters : List String := ["args", "key", "parameter", "expected", "read"]

def given : HostExpression := .method (.name "args") "get" [.name "parameter"]

def failing : HostExpression :=
  .closure [] (.call "mismatch" [.name "key", .name "parameter", .name "expected"])

def mismatch : HostFunction :=
  ⟨["key", "parameter", "expected"], .record "LookupError::ArgumentType"
    [("key", .method (.name "key") "to_string" []), ("parameter", .method (.name "parameter") "to_string" []),
      ("expected", .name "expected")]⟩

def typed : HostFunction :=
  ⟨checkParameters, .method (.method given "and_then" [.name "read"]) "ok_or_else" [failing]⟩

/-- The code for a value that is given. -/
def checking : HostExpression :=
  .method (.method (.call "read" [.name "value"]) "map" [.name "Some"]) "ok_or_else" [failing]

def nullable : HostFunction :=
  ⟨checkParameters, .cases given
    [([.name "None", .holding "Some" (.name "serde_json::Value::Null")], .call "Ok" [.name "None"]),
      ([.holding "Some" (.name "value")], checking)]⟩

def showValue : HostFunction :=
  ⟨["value"], .cases (.name "value")
    [([.holding "serde_json::Value::String" (.name "s")], .method (.name "s") "clone" []),
      ([.name "other"], .method (.name "other") "to_string" [])]⟩

/-- A function that shows a value that may be absent. -/
def showingOptional (shown : HostExpression) : HostFunction :=
  ⟨["value"], .method (.name "value") "map_or_else" [.closure [] (.method (.text "null") "to_string" []), shown]⟩

/-- A function that shows a value, or else a placeholder. -/
def showingProperty (shown : HostExpression) : HostFunction :=
  ⟨["value", "placeholder"], .cases (.name "value")
    [([.holding "Some" (.name "v")], shown), ([.name "None"], .method (.name "placeholder") "to_string" [])]⟩

def showOpt : HostFunction := showingOptional (.closure ["v"] (.method (.name "v") "to_string" []))

def showOptValue : HostFunction := showingOptional (.name "show_value")

def showProperty : HostFunction := showingProperty (.method (.name "v") "to_string" [])

def showPropertyValue : HostFunction := showingProperty (.call "show_value" [.name "v"])

/-- The functions by their names. -/
def functions : List (String × HostFunction) :=
  [("mismatch", mismatch), ("typed", typed), ("nullable", nullable),
    ("integer", reading "as_i64"), ("float", reading "as_f64"), ("boolean", reading "as_bool"),
    ("text", reading "as_str"), ("any", any),
    ("show_value", showValue), ("show_opt", showOpt), ("show_opt_value", showOptValue),
    ("show_property", showProperty), ("show_property_value", showPropertyValue)]

end SupportCode

theorem map_toList_cons {cs : List Char} {lines : List String} {css : List (List Char)}
    (h : lines.map String.toList = css) : (String.ofList cs :: lines).map String.toList = cs :: css := by
  rw [List.map_cons, String.toList_ofList, h]

/-- The characters of the lines are known once they are all spelled out, and then the functions can be read. -/
theorem exists_supportChars : ∃ css, supportLines.map String.toList = css ∧
    (∀ p ∈ SupportCode.functions, HostFunction.named? css p.1 = some p.2) ∧
      (∀ head ∈ pathHeads false (css.flatMap lex), head ∈ ["std", "serde_json", "LookupError"]) ∧
        ∀ head ∈ ["std", "serde_json", "LookupError"], head ∈ pathHeads false (css.flatMap lex) := by
  refine ⟨_, by unfold supportLines; repeat (first | exact List.map_nil | apply map_toList_cons), ?_, ?_, ?_⟩
  · unfold SupportCode.functions
    simp only [List.forall_mem_cons, List.not_mem_nil, false_imp_iff, implies_true, and_true]
    refine ⟨rfl, rfl, rfl, rfl, rfl, rfl, rfl, rfl, rfl, rfl, rfl, rfl, rfl⟩
  · decide +kernel
  · decide +kernel

/-- **Support code**: the functions that its lines hold. -/
theorem supportCode_of_mem {name : String} {f : HostFunction} (h : (name, f) ∈ SupportCode.functions) :
    supportCode name = some f := by
  obtain ⟨css, hcss, hfunctions, -⟩ := exists_supportChars
  rw [supportCode, HostCode.ofLines, hcss]
  exact hfunctions _ h

/-- The support code names two crates, and the type of its failures. -/
theorem mem_headsOfLines_supportLines {head : String} :
    head ∈ headsOfLines supportLines ↔ head ∈ ["std", "serde_json", "LookupError"] := by
  obtain ⟨css, hcss, -, hheads, hheads'⟩ := exists_supportChars
  rw [headsOfLines, hcss]
  exact ⟨hheads head, hheads' head⟩

/-! ## §2 Calls -/

namespace CodeValue

/-- The value of an argument that is read. -/
def ofArgument : HostArgument → CodeValue
  | .plain x => plain x
  | .optional x => ofOption x

/-- The result of a check. -/
def ofCheck (key parameter expected : String) : Option HostArgument → CodeValue
  | none => err (failure (.argumentType key parameter expected))
  | some a => ok (ofArgument a)

end CodeValue

namespace SupportCode

open HostCode CodeValue

/-- Code that has the functions of the support code. -/
def Within (code : HostCode) : Prop := ∀ p ∈ functions, code p.1 = some p.2

section Calls

variable {code : HostCode} (h : Within code) (depth : Nat)
include h

theorem function_display (kind : Builtin) : code kind.display = some (match kind with
    | .integer => reading "as_i64"
    | .float => reading "as_f64"
    | .boolean => reading "as_bool"
    | .text => reading "as_str"
    | .any => any) := by
  apply h (kind.display, _)
  cases kind <;> simp [functions, Builtin.display]

/-- A reader takes the values of its kind. -/
theorem call?_reader (kind : Builtin) (v : Json) :
    code.call? (depth + 4) kind.display [.plain (.value v)] = some (ofOption (kind.read? v)) := by
  have hname : kind.display ≠ "Some" ∧ kind.display ≠ "Ok" := by cases kind <;> decide
  rw [call?_eq (function_display h kind) hname (by cases kind <;> rfl)]
  cases kind with
  | any => cases v <;> rfl
  | _ => rfl

theorem call?_mismatch (key parameter expected : String) :
    code.call? (depth + 4) "mismatch" [.plain (.text key), .plain (.text parameter), .plain (.text expected)]
      = some (.failure (.argumentType key parameter expected)) := by
  rw [call?_eq (h _ (.head _)) (by decide) rfl]
  rfl

section Checks

variable (kind : Builtin) (named : List (String × Json)) (key parameter expected : String)

/-- What the parameters of the functions that check an argument stand for. -/
def checkScope : HostScope :=
  checkParameters.zip [.arguments named, .plain (.text key), .plain (.text parameter), .plain (.text expected),
    .function kind.display]

omit h in
theorem evaluate_given : code.evaluate (depth + 2) (checkScope kind named key parameter expected) given
    = some (ofOption ((Json.field? parameter named).map .value)) := rfl

/-- What fails, fails with what the function is given. -/
theorem apply_failing : code.apply (depth + 7) (checkScope kind named key parameter expected) failing []
    = some (.failure (.argumentType key parameter expected)) :=
  call?_mismatch h depth key parameter expected

theorem apply_read (v : Json) : code.apply (depth + 5) (checkScope kind named key parameter expected)
    (.name "read") [.plain (.value v)] = some (ofOption (kind.read? v)) := by
  rw [← call?_reader h depth kind v]
  cases kind <;> rfl

/-- The argument of a parameter that must be given, by the function that checks it. -/
theorem call?_typed : code.call? (depth + 8) "typed"
      [.arguments named, .plain (.text key), .plain (.text parameter), .plain (.text expected), .function kind.display]
    = some (ofCheck key parameter expected (HostArgument.read? false kind.read? (Json.field? parameter named))) := by
  have hgiven := @evaluate_given code (depth + 4) kind named key parameter expected
  rw [call?_eq (h _ (.tail _ (.head _))) (by decide) rfl]
  show code.evaluate (depth + 8) (checkScope kind named key parameter expected)
    (.method (.method given "and_then" [.name "read"]) "ok_or_else" [failing]) = _
  -- What is not given, or not of its kind, fails in the same way.
  cases hfield : Json.field? parameter named with
  | none =>
    rw [hfield] at hgiven
    rw [evaluate_ok_or_else_absent (evaluate_and_then_absent hgiven), apply_failing h]
    rfl
  | some v =>
    rw [hfield] at hgiven
    have hread := (evaluate_and_then_present hgiven).trans
      (apply_read h (depth + 1) kind named key parameter expected v)
    cases hkind : kind.read? v with
    | none =>
      rw [hkind] at hread
      rw [evaluate_ok_or_else_absent hread, apply_failing h]
      simp [HostArgument.read?, hkind, ofCheck]
    | some x =>
      rw [hkind] at hread
      rw [evaluate_ok_or_else_present hread]
      simp [HostArgument.read?, hkind, ofCheck, ofArgument]

/-- A value that is given is read, and then it is present. -/
theorem evaluate_checking (v : Json) :
    code.evaluate (depth + 8) (("value", .plain (.value v)) :: checkScope kind named key parameter expected) checking
      = some (ofCheck key parameter expected ((kind.read? v).map fun x => .optional (some x))) := by
  have hread : code.evaluate (depth + 6)
      (("value", .plain (.value v)) :: checkScope kind named key parameter expected) (.call "read" [.name "value"])
        = some (ofOption (kind.read? v)) := apply_read h depth kind named key parameter expected v
  have hfailing : code.apply (depth + 7)
      (("value", .plain (.value v)) :: checkScope kind named key parameter expected) failing []
        = some (.failure (.argumentType key parameter expected)) := call?_mismatch h depth key parameter expected
  cases hkind : kind.read? v with
  | none =>
    rw [hkind] at hread
    rw [checking, evaluate_ok_or_else_absent (evaluate_map_absent hread), hfailing]
    rfl
  | some x =>
    rw [hkind] at hread
    exact evaluate_ok_or_else_present (evaluate_map_present hread)

/-- The argument of a parameter that may be absent or null. -/
theorem call?_nullable : code.call? (depth + 9) "nullable"
      [.arguments named, .plain (.text key), .plain (.text parameter), .plain (.text expected), .function kind.display]
    = some (ofCheck key parameter expected (HostArgument.read? true kind.read? (Json.field? parameter named))) := by
  have hgiven := @evaluate_given code (depth + 6) kind named key parameter expected
  rw [call?_eq (h _ (.tail _ (.tail _ (.head _)))) (by decide) rfl]
  show code.evaluate (depth + 9) (checkScope kind named key parameter expected) nullable.body = _
  cases hfield : Json.field? parameter named with
  | none =>
    rw [hfield] at hgiven
    rw [nullable, evaluate_cases hgiven rfl]
    rfl
  | some v =>
    rw [hfield] at hgiven
    cases v with
    | null =>
      rw [nullable, evaluate_cases hgiven rfl]
      rfl
    | _ =>
      -- Any other value fits the second arm only.
      rw [nullable, evaluate_cases hgiven rfl]
      exact evaluate_checking h depth kind named key parameter expected _

end Checks

/-! ## §3 Shown values -/

theorem call?_showValue (v : Json) :
    code.call? (depth + 4) "show_value" [.plain (.value v)] = some (.plain (.text v.display)) := by
  rw [call?_eq (h ("show_value", showValue) (by simp [functions])) (by decide) rfl]
  cases v <;> rfl

theorem call?_showOpt (x : Option HostValue) :
    code.call? (depth + 4) "show_opt" [ofOption x] = some (.plain (.text (x.elim "null" HostValue.display))) := by
  rw [call?_eq (h ("show_opt", showOpt) (by simp [functions])) (by decide) rfl]
  rcases x with - | (- | - | - | - | v)
  case some.value => cases v <;> rfl
  all_goals rfl

theorem call?_showOptValue (v : Option Json) :
    code.call? (depth + 7) "show_opt_value" [ofOption (v.map .value)]
      = some (.plain (.text (v.elim "null" Json.display))) := by
  rw [call?_eq (h ("show_opt_value", showOptValue) (by simp [functions])) (by decide) rfl]
  cases v with
  | none => rfl
  | some v => exact call?_showValue h (depth + 1) v

theorem call?_showProperty (x : Option HostValue) (placeholder : String) :
    code.call? (depth + 4) "show_property" [ofOption x, .plain (.text placeholder)]
      = some (.plain (.text (x.elim placeholder HostValue.display))) := by
  rw [call?_eq (h ("show_property", showProperty) (by simp [functions])) (by decide) rfl]
  rcases x with - | (- | - | - | - | v)
  case some.value => cases v <;> rfl
  all_goals rfl

theorem call?_showPropertyValue (v : Option Json) (placeholder : String) :
    code.call? (depth + 7) "show_property_value" [ofOption (v.map .value), .plain (.text placeholder)]
      = some (.plain (.text (v.elim placeholder Json.display))) := by
  rw [call?_eq (h ("show_property_value", showPropertyValue) (by simp [functions])) (by decide) rfl]
  cases v with
  | none => rfl
  | some v => exact call?_showValue h depth v

end Calls

end SupportCode

/-! ## §4 Names -/

/-- How deep the calls of generated code go at most. -/
def callDepth : Nat := 16

/-- Only the readers of the kinds are known. -/
theorem exists_of_reader? {name : String} {read : Json → Option HostValue} (h : reader? name = some read) :
    ∃ kind : Builtin, name = kind.display ∧ read = kind.read? := by
  unfold reader? at h
  split_ifs at h with hinteger hfloat hboolean htext hany
  · exact ⟨.integer, hinteger, (Option.some.inj h).symm⟩
  · exact ⟨.float, hfloat, (Option.some.inj h).symm⟩
  · exact ⟨.boolean, hboolean, (Option.some.inj h).symm⟩
  · exact ⟨.text, htext, (Option.some.inj h).symm⟩
  · exact ⟨.any, hany, (Option.some.inj h).symm⟩

namespace SupportCode

open HostCode CodeValue

theorem within_supportCode : Within supportCode := fun _ h => supportCode_of_mem h

/-- **Readers**: a reader does what the function of its name in the support code does. -/
theorem reader?_call? {name : String} {read : Json → Option HostValue} (h : reader? name = some read) (v : Json) :
    supportCode.call? callDepth name [.plain (.value v)] = some (ofOption (read v)) := by
  obtain ⟨kind, rfl, rfl⟩ := exists_of_reader? h
  exact call?_reader within_supportCode 12 kind v

/-- **Checks**: an argument is refused, with the key, the parameter and the type that are given for it, exactly when
the function of the support code refuses it; otherwise both have the same argument. -/
theorem readArgument?_call? {helper reader : String} {read : Json → Option HostValue} (hread : reader? reader = some read)
    {named : List (String × Json)} {parameter : String} {checked : Option HostArgument}
    (h : readArgument? helper read (Json.field? parameter named) = some checked) (key expected : String) :
    supportCode.call? callDepth helper [.arguments named, .plain (.text key), .plain (.text parameter),
      .plain (.text expected), .function reader] = some (ofCheck key parameter expected checked) := by
  obtain ⟨kind, rfl, rfl⟩ := exists_of_reader? hread
  unfold readArgument? at h
  split_ifs at h with htyped hnullable
  · obtain rfl := Option.some.inj h
    rw [htyped]
    exact call?_typed within_supportCode 8 kind named key parameter expected
  · obtain rfl := Option.some.inj h
    rw [hnullable]
    exact call?_nullable within_supportCode 7 kind named key parameter expected

end SupportCode

end Phrasebook
