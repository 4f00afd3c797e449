import Phrasebook.Proofs.Emission.Evaluation
import Phrasebook.Proofs.Emission.HostValue
import Phrasebook.Json.Record

/-!
# Functions of generated code

The part of Rust in which the support code of a generated module is written: functions of one expression, with calls,
methods of optional values, closures that are called at once, and matches.

- An expression is read from its tokens from left to right; braces behind a name begin a record, but not between a
  `match` and its arms.
- An optional value, a result and a value of the data format have their constructors; a match takes its first arm with
  a pattern that fits.
- What a type is, is not looked at: a call of a function means what its body means for the arguments.

## Layers

- `HostExpression.read?`: the expression that tokens are.
- `HostFunction.named?`: a function of given lines, by its name.
- `HostCode.evaluate`: the value of an expression, `HostCode.call?` that of a call.
-/

namespace Phrasebook

open Phrasebook.Text

/-! ## §1 Expressions -/

/-- A pattern of a match. -/
inductive HostPattern where
  /-- A constructor without values, or else a name that any value fits. -/
  | name (path : String)
  | holding (path : String) (inner : HostPattern)

/-- An expression. A path is given with its separators. -/
inductive HostExpression where
  | name (path : String)
  | text (content : String)
  | negated (e : HostExpression)
  | call (function : String) (arguments : List HostExpression)
  | method (receiver : HostExpression) (name : String) (arguments : List HostExpression)
  | closure (parameters : List String) (body : HostExpression)
  | record (path : String) (fields : List (String × HostExpression))
  /-- A match, with the patterns of each arm. -/
  | cases (scrutinee : HostExpression) (arms : List (List HostPattern × HostExpression))

/-- The path that stands here, and what stands behind it. -/
def pathHere? : List Token → Option (String × List Token)
  | .word w :: .mark ':' :: .mark ':' :: ts => (pathHere? ts).map fun p => (w ++ "::" ++ p.1, p.2)
  | .word w :: ts => some (w, ts)
  | _ => none

namespace HostPattern

/-- The pattern that stands here. -/
def here? : Nat → List Token → Option (HostPattern × List Token)
  | 0, _ => none
  | fuel + 1, ts => do
    match ← pathHere? ts with
    | (path, .mark '(' :: ts) => match ← here? fuel ts with
      | (inner, .mark ')' :: ts) => return (holding path inner, ts)
      | _ => none
    | (path, ts) => return (name path, ts)

/-- The patterns of an arm, up to its arrow. -/
def allHere? : Nat → List Token → Option (List HostPattern × List Token)
  | 0, _ => none
  | fuel + 1, ts => do
    match ← here? fuel ts with
    | (p, .mark '|' :: ts) => return (← allHere? fuel ts).map (p :: ·) id
    | (p, .mark '=' :: .mark '>' :: ts) => return ([p], ts)
    | _ => none

end HostPattern

namespace HostExpression

mutual

/-- The expression that stands here. Braces behind a name are those of a record only where `records` says so. -/
def here? : Nat → Bool → List Token → Option (HostExpression × List Token)
  | 0, _, _ => none
  | fuel + 1, records, ts => match ts with
    | .mark '!' :: ts => (here? fuel records ts).map fun r => r.map negated id
    | .mark '|' :: .mark '|' :: ts => (here? fuel records ts).map fun r => r.map (closure []) id
    | .mark '|' :: .word x :: .mark '|' :: ts => (here? fuel records ts).map fun r => r.map (closure [x]) id
    | .mark '(' :: ts => (here? fuel true ts).bind fun r => match r with
      | (e, .mark ')' :: ts) => methodsHere? fuel e ts
      | _ => none
    | .text content :: ts => methodsHere? fuel (text content) ts
    | .word "match" :: ts => (here? fuel false ts).bind fun r => match r with
      | (scrutinee, .mark '{' :: ts) => (armsHere? fuel ts).map fun r => r.map (cases scrutinee) id
      | _ => none
    | ts => (pathHere? ts).bind fun r => match r with
      | (path, .mark '(' :: ts) =>
        (argumentsHere? fuel ts).bind fun r => methodsHere? fuel (call path r.1) r.2
      | (path, .mark '{' :: ts) =>
        if records then (fieldsHere? fuel ts).map fun r => r.map (record path) id
        else some (name path, .mark '{' :: ts)
      | (path, ts) => methodsHere? fuel (name path) ts

/-- An expression with the methods that are called of it here. -/
def methodsHere? : Nat → HostExpression → List Token → Option (HostExpression × List Token)
  | 0, _, _ => none
  | fuel + 1, e, ts => match ts with
    | .mark '.' :: .word m :: .mark '(' :: ts =>
      (argumentsHere? fuel ts).bind fun r => methodsHere? fuel (method e m r.1) r.2
    | ts => some (e, ts)

/-- The arguments that stand here, up to the bracket that closes them. -/
def argumentsHere? : Nat → List Token → Option (List HostExpression × List Token)
  | 0, _ => none
  | fuel + 1, ts => match ts with
    | .mark ')' :: ts => some ([], ts)
    | ts => (here? fuel true ts).bind fun r => match r with
      | (e, .mark ',' :: ts) => (argumentsHere? fuel ts).map fun r => r.map (e :: ·) id
      | (e, .mark ')' :: ts) => some ([e], ts)
      | _ => none

/-- The fields that stand here, up to the brace that closes them. A field with a name only has the value of this
name. -/
def fieldsHere? : Nat → List Token → Option (List (String × HostExpression) × List Token)
  | 0, _ => none
  | fuel + 1, ts => match ts with
    | .mark '}' :: ts => some ([], ts)
    | .word field :: .mark ',' :: ts =>
      (fieldsHere? fuel ts).map fun r => r.map ((field, name field) :: ·) id
    | .word field :: .mark ':' :: ts => (here? fuel true ts).bind fun r => match r with
      | (e, .mark ',' :: ts) => (fieldsHere? fuel ts).map fun r => r.map ((field, e) :: ·) id
      | _ => none
    | _ => none

/-- The arms that stand here, up to the brace that closes them. -/
def armsHere? : Nat → List Token → Option (List (List HostPattern × HostExpression) × List Token)
  | 0, _ => none
  | fuel + 1, ts => match ts with
    | .mark '}' :: ts => some ([], ts)
    | ts => (HostPattern.allHere? fuel ts).bind fun ps => (here? fuel true ps.2).bind fun r => match r with
      | (e, .mark ',' :: ts) => (armsHere? fuel ts).map fun r => r.map ((ps.1, e) :: ·) id
      | _ => none

end

/-- The expression that tokens are. Whatever is read has tokens of its own, so their number bounds the depth. -/
def read? (ts : List Token) : Option HostExpression :=
  match here? (2 * ts.length) true ts with
  | some (e, []) => some e
  | _ => none

end HostExpression

/-! ## §2 Functions -/

/-- A function of one expression. -/
structure HostFunction where
  parameters : List String
  body : HostExpression

/-- What stands up to the bracket that closes `depth` brackets more than it opens, and what stands behind it. -/
def bracketed? (opening closing : Char) : Nat → List Token → Option (List Token × List Token)
  | _, [] => none
  | depth, t :: ts =>
    if t = .mark closing then
      match depth with
      | 0 => some ([], ts)
      | depth + 1 => (bracketed? opening closing depth ts).map fun r => r.map (t :: ·) id
    else if t = .mark opening then (bracketed? opening closing (depth + 1) ts).map fun r => r.map (t :: ·) id
    else (bracketed? opening closing depth ts).map fun r => r.map (t :: ·) id

namespace HostFunction

/-- The function that the tokens behind its name are: parameters of types, and a body. -/
def read? (ts : List Token) : Option HostFunction := do
  let header ← bracketed? '(' ')' 0 ((ts.dropWhile fun t => t ≠ .mark '(').drop 1)
  -- A comma may stand behind the last parameter.
  let parameters ← ((commaParts 0 header.1).filter fun part => part ≠ []).mapM parameterName?
  let body ← bracketed? '{' '}' 0 ((header.2.dropWhile fun t => t ≠ .mark '{').drop 1)
  return ⟨parameters, ← HostExpression.read? body.1⟩

/-- The function of the given name in lines of code: it begins with its name, and ends with the first line that is a
closing brace. -/
def named? (lines : List (List Char)) (name : String) : Option HostFunction :=
  let code := lines.dropWhile fun line => (lex line).take 2 ≠ [.word "fn", .word name]
  match lex ((code.takeWhile (· ≠ ['}'])).flatMap (· ++ ['\n'])) ++ [.mark '}'] with
  | .word "fn" :: .word _ :: ts => read? ts
  | _ => none

end HostFunction

/-! ## §3 Values -/

/-- Why a call by name fails in the generated module. -/
inductive LookupFailure where
  | keyNotFound (key : String)
  | argumentType (key parameter expected : String)

/-- A value that an expression can have. -/
inductive CodeValue where
  | plain (x : HostValue)
  /-- An optional value, `None` or `Some`. -/
  | absent
  | present (v : CodeValue)
  /-- A result, `Ok` or `Err`. -/
  | ok (v : CodeValue)
  | err (v : CodeValue)
  | failure (f : LookupFailure)
  /-- Arguments that are given by name. -/
  | arguments (named : List (String × Json))
  /-- A function, by its name. -/
  | function (name : String)

/-- What the names of an expression stand for. -/
abbrev HostScope := List (String × CodeValue)

namespace CodeValue

def ofOption : Option HostValue → CodeValue
  | none => absent
  | some x => present (plain x)

/-- The text that a value is displayed as. -/
def display? : CodeValue → Option String
  | plain x => some x.display
  | _ => none

/-- The value of a method that calls no function. -/
def method? : CodeValue → String → List CodeValue → Option CodeValue
  | arguments named, "get", [plain (.text key)] => some (ofOption ((Json.field? key named).map .value))
  | plain (.value v), "as_i64", [] => some (ofOption (HostValue.integer? v))
  | plain (.value v), "as_f64", [] => some (ofOption (HostValue.float? v))
  | plain (.value v), "as_bool", [] => some (ofOption (HostValue.boolean? v))
  | plain (.value v), "as_str", [] => some (ofOption (HostValue.text? v))
  | plain (.value .null), "is_null", [] => some (plain (.boolean true))
  | plain (.value _), "is_null", [] => some (plain (.boolean false))
  | plain (.boolean b), "then_some", [v] => some (if b then present v else absent)
  | plain (.text s), "clone", [] => some (plain (.text s))
  | v, "to_string", [] => v.display?.map fun s => plain (.text s)
  | _, _, _ => none

end CodeValue

/-- What the names of a pattern stand for, when a value fits it. -/
def HostPattern.scope? : HostPattern → CodeValue → Option HostScope
  | name path, v =>
    if path = "None" then
      match v with
      | .absent => some []
      | _ => none
    else if path = "serde_json::Value::Null" then
      match v with
      | .plain (.value .null) => some []
      | _ => none
    else some [(path, v)]
  | holding path inner, v =>
    if path = "Some" then
      match v with
      | .present v => inner.scope? v
      | _ => none
    else if path = "serde_json::Value::String" then
      match v with
      | .plain (.value (.string s)) => inner.scope? (.plain (.text s))
      | _ => none
    else none

/-! ## §4 Evaluation -/

/-- The failure of a record. -/
def LookupFailure.ofRecord? (path : String) (fields : List (String × CodeValue)) : Option LookupFailure :=
  if path = "LookupError::ArgumentType" then
    match fields with
    | [("key", .plain (.text key)), ("parameter", .plain (.text parameter)), ("expected", .plain (.text expected))] =>
      some (.argumentType key parameter expected)
    | _ => none
  else none

/-- The name of the function that a name calls. What the name stands for comes before the function of this name, and
need not be a function. -/
def calledName? (scope : HostScope) (name : String) : Option String :=
  match Entries.find? name scope with
  | none => some name
  | some (.function g) => some g
  | some _ => none

/-- The functions of code, by their names. -/
abbrev HostCode := String → Option HostFunction

namespace HostCode

variable (code : HostCode)

mutual

/-- The value of an expression, whose parts and calls go no deeper than `depth`. -/
def evaluate : Nat → HostScope → HostExpression → Option CodeValue
  | 0, _, _ => none
  | depth + 1, scope, e => match e with
    | .name path => if path = "None" then some .absent else Entries.find? path scope
    | .text content => some (.plain (.text content))
    | .negated e => (evaluate depth scope e).bind fun v => match v with
      | .plain (.boolean b) => some (.plain (.boolean !b))
      | _ => none
    | .call function arguments => (arguments.mapM (evaluate depth scope)).bind (apply depth scope (.name function))
    | .method receiver m arguments => (evaluate depth scope receiver).bind fun v => match m, arguments, v with
      | "and_then", [_], .absent => some .absent
      | "and_then", [f], .present v => apply depth scope f [v]
      | "map", [_], .absent => some .absent
      | "map", [f], .present v => (apply depth scope f [v]).map .present
      | "ok_or_else", [f], .absent => (apply depth scope f []).map .err
      | "ok_or_else", [_], .present v => some (.ok v)
      | "map_or_else", [f, _], .absent => apply depth scope f []
      | "map_or_else", [_, f], .present v => apply depth scope f [v]
      | m, arguments, v => (arguments.mapM (evaluate depth scope)).bind (v.method? m)
    | .closure .. => none
    | .record path fields =>
      (fields.mapM fun f => (evaluate depth scope f.2).map (f.1, ·)).bind fun fields =>
        (LookupFailure.ofRecord? path fields).map .failure
    | .cases scrutinee arms => (evaluate depth scope scrutinee).bind fun v =>
      (arms.findSome? fun arm => (arm.1.findSome? (·.scope? v)).map (·, arm.2)).bind fun r =>
        evaluate depth (r.1 ++ scope) r.2

/-- The value of a call of what stands in the place of a function: a closure, or the name of a constructor, of a value
that is a function, or of a function of the code. -/
def apply : Nat → HostScope → HostExpression → List CodeValue → Option CodeValue
  | 0, _, _, _ => none
  | depth + 1, scope, f, vs => match f with
    | .closure parameters body =>
      if parameters.length = vs.length then evaluate depth (parameters.zip vs ++ scope) body else none
    | .name "Some" => match vs with
      | [v] => some (.present v)
      | _ => none
    | .name "Ok" => match vs with
      | [v] => some (.ok v)
      | _ => none
    | .name name =>
      ((calledName? scope name).bind code).bind fun f =>
        if f.parameters.length = vs.length then evaluate depth (f.parameters.zip vs) f.body else none
    | _ => none

end

/-- The value of a call of a function by its name. -/
def call? (depth : Nat) (name : String) (vs : List CodeValue) : Option CodeValue :=
  code.apply (depth + 1) [] (.name name) vs

end HostCode

/-! ## §5 Depth -/

/-- Whatever is computed on the left is computed on the right too. -/
def Refines {α : Type} (a b : Option α) : Prop := ∀ v, a = some v → b = some v

namespace Refines

variable {α β : Type}

theorem refl (a : Option α) : Refines a a := fun _ h => h

theorem trans {a b c : Option α} (h : Refines a b) (h' : Refines b c) : Refines a c := fun v hv => h' v (h v hv)

theorem bind {a b : Option α} {f g : α → Option β} (h : Refines a b) (hf : ∀ x, Refines (f x) (g x)) :
    Refines (a.bind f) (b.bind g) := by
  intro v hv
  obtain ⟨x, hx, hfx⟩ := Option.bind_eq_some_iff.mp hv
  exact Option.bind_eq_some_iff.mpr ⟨x, h x hx, hf x v hfx⟩

theorem map (f : α → β) {a b : Option α} (h : Refines a b) : Refines (a.map f) (b.map f) := by
  intro v hv
  obtain ⟨x, hx, rfl⟩ := Option.map_eq_some_iff.mp hv
  exact Option.map_eq_some_iff.mpr ⟨x, h x hx, rfl⟩

theorem mapM {f g : α → Option β} (h : ∀ x, Refines (f x) (g x)) (as : List α) :
    Refines (as.mapM f) (as.mapM g) := by
  induction as with
  | nil => exact .refl _
  | cons a as ih =>
    rw [List.mapM_cons, List.mapM_cons]
    exact (h a).bind fun x => ih.bind fun xs => .refl _

end Refines

namespace HostCode

variable {code : HostCode}

/-- One more level changes no value. -/
theorem refines_succ (depth : Nat) :
    (∀ scope e, Refines (code.evaluate depth scope e) (code.evaluate (depth + 1) scope e)) ∧
      ∀ scope f vs, Refines (code.apply depth scope f vs) (code.apply (depth + 1) scope f vs) := by
  induction depth with
  | zero =>
    -- Nothing has a value without any level.
    have hnone : ∀ {α : Type} {a : Option α}, Refines none a := fun v hv => by cases hv
    exact ⟨fun scope e => hnone, fun scope f vs => hnone⟩
  | succ depth ih =>
    obtain ⟨hevaluate, happly⟩ := ih
    refine ⟨fun scope e => ?_, fun scope f vs => ?_⟩
    · unfold evaluate
      cases e with
      | name path => exact .refl _
      | text content => exact .refl _
      | negated e => exact .bind (hevaluate scope e) fun v => .refl _
      | call function arguments => exact .bind (.mapM (hevaluate scope) arguments) fun vs => happly scope _ vs
      | method receiver m arguments =>
        refine .bind (hevaluate scope receiver) fun v => ?_
        split
        · exact .refl _
        · exact happly scope _ _
        · exact .refl _
        · exact .map _ (happly scope _ _)
        · exact .map _ (happly scope _ _)
        · exact .refl _
        · exact happly scope _ _
        · exact happly scope _ _
        · exact .bind (.mapM (hevaluate scope) _) fun vs => .refl _
      | closure parameters body => exact .refl _
      | record path fields => exact .bind (.mapM (fun f => .map _ (hevaluate scope f.2)) fields) fun fs => .refl _
      | cases scrutinee arms =>
        exact .bind (hevaluate scope scrutinee) fun v => .bind (.refl _) fun r => hevaluate _ r.2
    · unfold apply
      split
      · split
        · exact hevaluate _ _
        · exact .refl _
      · exact .refl _
      · exact .refl _
      · refine .bind (.refl _) fun f => ?_
        split
        · exact hevaluate _ _
        · exact .refl _
      · exact .refl _

/-- **Depth** only bounds the evaluation: the value of a call does not depend on it. -/
theorem call?_mono {depth depth' : Nat} (h : depth ≤ depth') {name : String} {vs : List CodeValue} {v : CodeValue}
    (hv : code.call? depth name vs = some v) : code.call? depth' name vs = some v := by
  induction h with
  | refl => exact hv
  | step _ ih => exact (refines_succ _).2 _ _ _ v ih

/-! ## §6 Rules -/

/-- A name that is no constructor calls a function: its body is evaluated, with the arguments for its parameters. -/
theorem apply_name {scope : HostScope} {name called : String} {f : HostFunction} {vs : List CodeValue}
    (hname : name ≠ "Some" ∧ name ≠ "Ok") (hcalled : calledName? scope name = some called) (h : code called = some f)
    (hlength : f.parameters.length = vs.length) (depth : Nat) :
    code.apply (depth + 1) scope (.name name) vs = code.evaluate depth (f.parameters.zip vs) f.body := by
  unfold apply
  -- The two constructors are matched before all other names.
  split
  · rename_i heq
    cases heq
  · rename_i heq
    exact absurd (HostExpression.name.inj heq) hname.1
  · rename_i heq
    exact absurd (HostExpression.name.inj heq) hname.2
  · rename_i heq
    obtain rfl := HostExpression.name.inj heq
    rw [hcalled, Option.bind_some, h, Option.bind_some, if_pos hlength]
  · rename_i hnone
    exact absurd rfl (hnone name)

theorem call?_eq {name : String} {f : HostFunction} {vs : List CodeValue} (h : code name = some f)
    (hname : name ≠ "Some" ∧ name ≠ "Ok") (hlength : f.parameters.length = vs.length) (depth : Nat) :
    code.call? depth name vs = code.evaluate depth (f.parameters.zip vs) f.body :=
  apply_name hname rfl h hlength depth

/-- A match takes the first arm with a pattern that its value fits. -/
theorem evaluate_cases {depth : Nat} {scope bound : HostScope} {scrutinee e : HostExpression} {v : CodeValue}
    {arms : List (List HostPattern × HostExpression)} (hv : code.evaluate depth scope scrutinee = some v)
    (harm : arms.findSome? (fun arm => (arm.1.findSome? (·.scope? v)).map (·, arm.2)) = some (bound, e)) :
    code.evaluate (depth + 1) scope (.cases scrutinee arms) = code.evaluate depth (bound ++ scope) e := by
  rw [evaluate, hv, Option.bind_some, harm, Option.bind_some]

section Methods

variable {depth : Nat} {scope : HostScope} {receiver f : HostExpression} {v : CodeValue}

theorem evaluate_and_then_absent (h : code.evaluate depth scope receiver = some .absent) :
    code.evaluate (depth + 1) scope (.method receiver "and_then" [f]) = some .absent := by
  rw [evaluate, h]
  rfl

theorem evaluate_and_then_present (h : code.evaluate depth scope receiver = some (.present v)) :
    code.evaluate (depth + 1) scope (.method receiver "and_then" [f]) = code.apply depth scope f [v] := by
  rw [evaluate, h]
  rfl

theorem evaluate_map_absent (h : code.evaluate depth scope receiver = some .absent) :
    code.evaluate (depth + 1) scope (.method receiver "map" [f]) = some .absent := by
  rw [evaluate, h]
  rfl

theorem evaluate_map_present (h : code.evaluate depth scope receiver = some (.present v)) :
    code.evaluate (depth + 1) scope (.method receiver "map" [f]) = (code.apply depth scope f [v]).map .present := by
  rw [evaluate, h]
  rfl

theorem evaluate_ok_or_else_absent (h : code.evaluate depth scope receiver = some .absent) :
    code.evaluate (depth + 1) scope (.method receiver "ok_or_else" [f]) = (code.apply depth scope f []).map .err := by
  rw [evaluate, h]
  rfl

theorem evaluate_ok_or_else_present (h : code.evaluate depth scope receiver = some (.present v)) :
    code.evaluate (depth + 1) scope (.method receiver "ok_or_else" [f]) = some (.ok v) := by
  rw [evaluate, h]
  rfl

end Methods

end HostCode

end Phrasebook
