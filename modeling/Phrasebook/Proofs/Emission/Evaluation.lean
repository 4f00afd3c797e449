import Phrasebook.Basic
import Phrasebook.Proofs.Emission.Token
import Mathlib.Data.List.Basic

/-!
# Evaluation of generated code

The meaning of the function of an accessor, read off its code: the text that it returns for a locale, for texts that
its parameters are shown as, and for texts that the properties are shown as.

- A match takes the arm of the variant of the locale, or else the arm of the wildcard.
- A format writes a doubled brace once and puts the next argument in the place of a pair of braces.
- What is no code of this form has no meaning.

## Layers

- `FunctionCall.evaluate`: the meaning of a function, by `CodeScope.body?`, `CodeScope.expression?` and
  `CodeScope.argument?`.
- `Closed`: tokens that are not cut at commas; `commaParts_intercalate` and `commaParts_ended` cut the others.
-/

namespace Phrasebook

/-! ## §1 Parts between commas -/

/-- The parts of a list with tokens put in front of the first one. -/
def joinFirst (ts : List Token) : List (List Token) → List (List Token)
  | [] => [ts]
  | p :: ps => (ts ++ p) :: ps

/-- The parts of code between the commas that stand in no bracket, `depth` brackets being open before it. -/
def commaParts (depth : Nat) : List Token → List (List Token)
  | [] => [[]]
  | t :: ts =>
    if t = .mark '(' then joinFirst [t] (commaParts (depth + 1) ts)
    else if t = .mark ')' then joinFirst [t] (commaParts (depth - 1) ts)
    else if t = .mark ',' ∧ depth = 0 then [] :: commaParts 0 ts
    else joinFirst [t] (commaParts depth ts)

theorem commaParts_open (depth : Nat) (ts : List Token) :
    commaParts depth (.mark '(' :: ts) = joinFirst [.mark '('] (commaParts (depth + 1) ts) := by
  rw [commaParts, if_pos rfl]

theorem commaParts_close (depth : Nat) (ts : List Token) :
    commaParts depth (.mark ')' :: ts) = joinFirst [.mark ')'] (commaParts (depth - 1) ts) := by
  simp [commaParts]

/-- A comma is cut at when no bracket is open. -/
theorem commaParts_comma (ts : List Token) : commaParts 0 (.mark ',' :: ts) = [] :: commaParts 0 ts := by
  simp [commaParts]

theorem commaParts_comma_inside (depth : Nat) (ts : List Token) :
    commaParts (depth + 1) (.mark ',' :: ts) = joinFirst [.mark ','] (commaParts (depth + 1) ts) := by
  simp [commaParts]

/-- What stands behind given code. -/
def behind? (code : String) (ts : List Token) : Option (List Token) := ts.dropPrefix? (lex code.toList)

/-- What stands in front of a mark at the end. -/
def before? (c : Char) (ts : List Token) : Option (List Token) :=
  if ts.getLast? = some (.mark c) then some ts.dropLast else none

/-! ## §2 Expressions -/

/-- What the names in the code of a function stand for. -/
structure CodeScope where
  /-- The parameters, by the texts that they are shown as. -/
  parameters : List (String × String)
  /-- The fields of the properties, by the texts that they are shown as when they are set. -/
  fields : List (String × Option String)

/-- The functions that show a parameter. -/
def parameterHelpers : List String := ["show_value", "show_opt", "show_opt_value"]

/-- The functions that show a property, or else the text of its placeholder. -/
def propertyHelpers : List String := ["show_property", "show_property_value"]

/-- The text of a pattern with its arguments, if there are as many as it asks for. -/
def formatted : List Char → List (List Char) → Option (List Char)
  | [], [] => some []
  | [], _ :: _ => none
  | '{' :: '{' :: cs, args => (formatted cs args).map ('{' :: ·)
  | '}' :: '}' :: cs, args => (formatted cs args).map ('}' :: ·)
  | '{' :: '}' :: cs, arg :: args => (formatted cs args).map (arg ++ ·)
  | c :: cs, args => if c = '{' ∨ c = '}' then none else (formatted cs args).map (c :: ·)

namespace CodeScope

/-- The text of an argument of a format. -/
def argument? (s : CodeScope) : List Token → Option String
  | [.word x] => Entries.find? x s.parameters
  | .word "super" :: .mark ':' :: .mark ':' :: .word helper :: .mark '(' :: ts =>
    if parameterHelpers.contains helper then
      match ts with
      | [.word x, .mark ')'] => Entries.find? x s.parameters
      | _ => none
    else if propertyHelpers.contains helper then
      match ts with
      | [.mark '&', .word "props", .mark '.', .word field, .mark ',', .text placeholder, .mark ')'] =>
        (Entries.find? field s.fields).map (·.getD placeholder)
      | _ => none
    else none
  | _ => none

/-- The text of a format, by the parts between its brackets. -/
def format? (s : CodeScope) : List (List Token) → Option String
  | [.text pattern] :: args =>
    ((args.mapM s.argument?).bind fun texts => formatted pattern.toList (texts.map String.toList)).map String.ofList
  | _ => none

/-- The text of an expression. -/
def expression? (s : CodeScope) : List Token → Option String
  | [.word "String", .mark ':', .mark ':', .word "from", .mark '(', .text content, .mark ')'] => some content
  | .word "format" :: .mark '!' :: .mark '(' :: ts => (before? ')' ts).bind fun ts => s.format? (commaParts 0 ts)
  | _ => none

end CodeScope

/-! ## §3 Functions -/

/-- The result of the first arm that a variant has, the arms being ended by commas. -/
def armFor? (variant : String) : List (List Token) → Option (List Token)
  | (.word "_" :: .mark '=' :: .mark '>' :: result) :: _ => some result
  | (.word "Locale" :: .mark ':' :: .mark ':' :: .word v :: .mark '=' :: .mark '>' :: result) :: arms =>
    if v = variant then some result else armFor? variant arms
  | _ => none

/-- The text of the body of a function for the variant of a locale. -/
def CodeScope.body? (s : CodeScope) (variant : String) (ts : List Token) : Option String :=
  match behind? "match locale \x7b" ts with
  | some arms => ((before? '}' arms).bind fun arms => armFor? variant (commaParts 0 arms)).bind s.expression?
  | none => s.expression? ts

/-- The name of a parameter of a function. -/
def parameterName? : List Token → Option String
  | .word name :: .mark ':' :: _ => some name
  | _ => none

/-- A call of the function of an accessor. -/
structure FunctionCall where
  variant : String
  /-- The texts that the parameters are shown as, in their order. -/
  arguments : List String
  /-- The fields of the properties, by the texts that they are shown as when they are set. -/
  fields : List (String × Option String)

namespace FunctionCall

/-- What the names of parameters stand for, if there are as many as texts and none is there twice. -/
def scope? (c : FunctionCall) : List String → Option CodeScope
  | "locale" :: "props" :: names =>
    if ("locale" :: "props" :: names).Nodup ∧ names.length = c.arguments.length then
      some ⟨names.zip c.arguments, c.fields⟩
    else none
  | _ => none

/-- The text that a function returns. -/
def function? (c : FunctionCall) (ts : List Token) : Option String :=
  match behind? "pub fn" ts with
  | some (.word _ :: .mark '(' :: ts) =>
    let parameters := ts.takeWhile fun t => t ≠ .mark ')'
    (((commaParts 0 parameters).mapM parameterName?).bind c.scope?).bind fun scope =>
      (behind? ") -> String \x7b" (ts.dropWhile fun t => t ≠ .mark ')')).bind fun body =>
        (before? '}' body).bind (scope.body? c.variant)
  | _ => none

/-- The text that the function of which the code is given returns. -/
def evaluate (c : FunctionCall) (code : String) : Option String := c.function? (lex code.toList)

end FunctionCall

/-! ## §4 Reading -/

theorem behind?_append (code : String) (ts : List Token) : behind? code (lex code.toList ++ ts) = some ts := by
  unfold behind?
  rw [List.dropPrefix?_eq_some_iff]
  exact ⟨lex code.toList, rfl, by simp⟩

theorem before?_append (c : Char) (ts : List Token) : before? c (ts ++ [.mark c]) = some ts := by
  unfold before?
  rw [List.getLast?_concat, if_pos rfl, List.dropLast_concat]

/-- What is read of each item of a list is read of the list. -/
theorem mapM_eq_some {α β : Type} {f : α → Option β} {g : α → β} {as : List α} (h : ∀ a ∈ as, f a = some (g a)) :
    as.mapM f = some (as.map g) := by
  induction as with
  | nil => rfl
  | cons a as ih =>
    rw [List.mapM_cons, h a List.mem_cons_self, ih fun b hb => h b (List.mem_cons_of_mem a hb)]
    rfl

/-- Tokens that are not cut at commas. -/
def Closed (ts : List Token) : Prop :=
  ∀ depth rest, commaParts depth (ts ++ rest) = joinFirst ts (commaParts depth rest)

/-- Tokens that are not cut at commas when they stand between brackets. -/
def Inside (ts : List Token) : Prop :=
  ∀ depth rest, commaParts (depth + 1) (ts ++ rest) = joinFirst ts (commaParts (depth + 1) rest)

theorem commaParts_ne_nil (depth : Nat) (ts : List Token) : commaParts depth ts ≠ [] := by
  -- A token that is no comma joins the first part, so there is one.
  have hjoin : ∀ (t : List Token) ps, joinFirst t ps ≠ [] := by
    intro t ps
    cases ps <;> simp [joinFirst]
  cases ts with
  | nil => simp [commaParts]
  | cons t ts =>
    unfold commaParts
    split
    · exact hjoin _ _
    · split
      · exact hjoin _ _
      · split
        · simp
        · exact hjoin _ _

theorem joinFirst_append (s t : List Token) (ps : List (List Token)) :
    joinFirst (s ++ t) ps = joinFirst s (joinFirst t ps) := by
  cases ps with
  | nil => rfl
  | cons p ps => simp [joinFirst]

theorem joinFirst_commaParts_nil (depth : Nat) (ts : List Token) :
    joinFirst [] (commaParts depth ts) = commaParts depth ts := by
  cases h : commaParts depth ts with
  | nil => exact absurd h (commaParts_ne_nil depth ts)
  | cons p ps => rfl

theorem closed_nil : Closed [] := fun depth rest => (joinFirst_commaParts_nil depth rest).symm

theorem Closed.append {s t : List Token} (hs : Closed s) (ht : Closed t) : Closed (s ++ t) := by
  intro depth rest
  rw [List.append_assoc, hs, ht, joinFirst_append]

theorem Closed.inside {ts : List Token} (h : Closed ts) : Inside ts := fun depth rest => h (depth + 1) rest

theorem Inside.append {s t : List Token} (hs : Inside s) (ht : Inside t) : Inside (s ++ t) := by
  intro depth rest
  rw [List.append_assoc, hs, ht, joinFirst_append]

/-- Whether a token is neither a bracket nor a comma. -/
def isSimple (t : Token) : Bool := t ≠ .mark '(' && t ≠ .mark ')' && t ≠ .mark ','

theorem closed_of_isSimple {ts : List Token} (h : ∀ t ∈ ts, isSimple t = true) : Closed ts := by
  induction ts with
  | nil => exact closed_nil
  | cons t ts ih =>
    have ht := h t List.mem_cons_self
    simp only [isSimple, Bool.and_eq_true, decide_eq_true_eq, ne_eq] at ht
    -- A token that is no bracket keeps the depth, and one that is no comma is never cut at.
    have hhead : Closed [t] := by
      intro depth rest
      rw [List.singleton_append, commaParts, if_neg ht.1.1, if_neg ht.1.2, if_neg fun hcomma => ht.2 hcomma.1]
    have htail := ih fun u hu => h u (List.mem_cons_of_mem t hu)
    exact hhead.append htail

theorem inside_comma : Inside [.mark ','] := by
  intro depth rest
  exact commaParts_comma_inside depth rest

/-- Between parts stand commas only. -/
theorem mem_of_mem_intercalate {parts : List (List Token)} {x : Token}
    (h : x ∈ [Token.mark ','].intercalate parts) : x = .mark ',' ∨ ∃ p ∈ parts, x ∈ p := by
  -- By induction on the parts, of which the last one has no comma behind it.
  induction parts with
  | nil => cases h
  | cons p parts ih =>
    cases parts with
    | nil => exact .inr ⟨p, List.mem_cons_self, by simpa using h⟩
    | cons q parts =>
      rw [List.intercalate_cons_cons] at h
      rcases List.mem_append.mp h with h | h
      · rcases List.mem_append.mp h with h | h
        · exact .inr ⟨p, List.mem_cons_self, h⟩
        · exact .inl (List.mem_singleton.mp h)
      · rcases ih h with hcomma | ⟨r, hr, hx⟩
        · exact .inl hcomma
        · exact .inr ⟨r, List.mem_cons_of_mem p hr, hx⟩

theorem inside_intercalate {parts : List (List Token)} (h : ∀ p ∈ parts, Closed p) :
    Inside ([Token.mark ','].intercalate parts) := by
  induction parts with
  | nil => exact closed_nil.inside
  | cons p parts ih =>
    have hp := (h p List.mem_cons_self).inside
    have hrest := ih fun q hq => h q (List.mem_cons_of_mem p hq)
    cases parts with
    | nil => simpa using hp
    | cons q parts =>
      rw [List.intercalate_cons_cons]
      exact (hp.append inside_comma).append hrest

/-- A pair of brackets closes what stands between them. -/
theorem Inside.brackets {ts : List Token} (h : Inside ts) : Closed (.mark '(' :: (ts ++ [.mark ')'])) := by
  intro depth rest
  -- Between the brackets the depth is greater by one, so that no comma there is cut at.
  rw [List.cons_append, commaParts_open, List.append_assoc, h, List.singleton_append, commaParts_close,
    Nat.add_sub_cancel, ← joinFirst_append, ← joinFirst_append]
  rfl

/-- Closed parts with commas between them are cut at these commas. -/
theorem commaParts_intercalate {parts : List (List Token)} (hne : parts ≠ []) (h : ∀ p ∈ parts, Closed p) :
    commaParts 0 ([Token.mark ','].intercalate parts) = parts := by
  induction parts with
  | nil => exact absurd rfl hne
  | cons p parts ih =>
    have hp := h p List.mem_cons_self
    cases parts with
    | nil =>
      have halone := hp 0 []
      rw [List.append_nil] at halone
      rw [List.intercalate_singleton, halone]
      simp [commaParts, joinFirst]
    | cons q parts =>
      -- `p` is not cut, so the first cut is at the comma behind it.
      have hrest := ih (List.cons_ne_nil q parts) fun r hr => h r (List.mem_cons_of_mem p hr)
      rw [List.intercalate_cons_cons, List.append_assoc, hp, List.singleton_append, commaParts_comma, hrest]
      simp [joinFirst]

/-- Closed parts that are ended by commas are cut at these commas. -/
theorem commaParts_ended {parts : List (List Token)} (h : ∀ p ∈ parts, Closed p) :
    commaParts 0 (parts.flatMap fun p => p ++ [.mark ',']) = parts ++ [[]] := by
  induction parts with
  | nil => rfl
  | cons p parts ih =>
    have hp := h p List.mem_cons_self
    have hrest := ih fun q hq => h q (List.mem_cons_of_mem p hq)
    rw [List.flatMap_cons, List.append_assoc, hp, List.singleton_append, commaParts_comma, hrest]
    simp [joinFirst]

end Phrasebook
