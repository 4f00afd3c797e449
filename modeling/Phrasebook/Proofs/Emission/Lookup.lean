import Phrasebook.Proofs.Accessor.Calls
import Phrasebook.Proofs.Compile.Run
import Phrasebook.Proofs.Emission.Accessor
import Phrasebook.Proofs.Emission.FunctionNames
import Phrasebook.Proofs.Emission.Support
import Phrasebook.Proofs.Name.Legal
import Phrasebook.Proofs.Text.Quoted

/-!
# The lookup by name

The function that renders a key by name takes and refuses exactly the calls that the table does, with the same error,
unless its names do not mean what they should: then it is no code at all.

- The code of the function is read as a match on the name: each arm has a key, the function of an accessor and the
  arguments that are read for it; the last arm stands for all other names.
- The function of an arm is looked up where the arm stands: the parameters come first, and then the functions of the
  module, of which no two may have one name.
- A call takes the first arm of its name and reads the arguments in their order, up to the first one that is refused.
  They are read by the functions of the support code.

## Layers

- `LookupArm.ofLine?`, `readLookup?`: the arms of a function, read off its code.
- `LookupCode.accepts`, `LookupCode.evaluate?`: whether the names of the function can be looked up, and what a call of it
  comes to.
- `here?_code`, `ofLine?_code`, `readLookup?_namedCallLines`: the arms that are read are those of the keys.
- `compile_looks_up`: the functions of all tables of a compilation.
-/

namespace Phrasebook

open Phrasebook.Name Phrasebook.Text

/-! ## §1 Reading code -/

/-- A character of a name, which may be written raw. -/
def isNameChar (c : Char) : Bool := isIdentifierChar c || c = '#'

/-- The name that stands here, and what stands behind it. -/
def nameHere (cs : List Char) : String × List Char :=
  (String.ofList (cs.takeWhile isNameChar), cs.dropWhile isNameChar)

/-- Code that reads an argument by name. -/
structure LookupArgument where
  /-- The function that checks the argument. -/
  helper : String
  key : String
  name : String
  expected : String
  reader : String

/-- The argument that stands here behind a comma, and what stands behind it. -/
def LookupArgument.here? (cs : List Char) : Option (LookupArgument × List Char) := do
  let cs ← dropStart? ", super::".toList cs
  let helper := nameHere cs
  let cs ← dropStart? "(args, ".toList helper.2
  let key ← quotedText? cs
  let cs ← dropStart? ", ".toList key.2
  let name ← quotedText? cs
  let cs ← dropStart? ", ".toList name.2
  let expected ← quotedText? cs
  let cs ← dropStart? ", super::".toList expected.2
  let reader := nameHere cs
  let cs ← dropStart? ")?".toList reader.2
  return (⟨helper.1, key.1, name.1, expected.1, reader.1⟩, cs)

/-- The arguments that stand here, less than `fuel` of them, and what stands behind them. -/
def LookupArgument.allHere : Nat → List Char → List LookupArgument × List Char
  | 0, cs => ([], cs)
  | fuel + 1, cs => match here? cs with
    | none => ([], cs)
    | some (a, cs) => ((allHere fuel cs).map (a :: ·) id)

/-- The arm of a key. -/
structure LookupArm where
  key : String
  /-- The function of the accessor of the key. -/
  function : String
  arguments : List LookupArgument

/-- The arm in a line. Each argument shortens the text, so the length of the text bounds their number. -/
def LookupArm.ofLine? (line : List Char) : Option LookupArm := do
  let key ← quotedText? line
  let cs ← dropStart? " => Ok(".toList key.2
  let function := nameHere cs
  let cs ← dropStart? "(locale, props".toList function.2
  let arguments := LookupArgument.allHere cs.length cs
  if arguments.2 = ")),".toList then return ⟨key.1, function.1, arguments.1⟩ else none

/-- The lines of code without their indentation. -/
def codeLines (code : List Char) : List String :=
  (splitOn '\n' code).map fun line => String.ofList (line.dropWhile (· == ' '))

/-- The lines up to the first arm. -/
def lookupHead : List String :=
  ["/// Renders a key by name, reading arguments from a JSON object.", "pub fn render_by_name(", "name: &str,",
    "locale: Locale,", "props: &Properties,", "args: &super::Args,", ") -> Result<String, super::LookupError> \x7b",
    "match name \x7b"]

/-- The lines from the arm of all other names on. -/
def lookupTail : List String :=
  ["_ => Err(super::LookupError::KeyNotFound \x7b", "key: name.to_string(),", "\x7d),", "\x7d", "\x7d", ""]

/-- The arms up to that of all other names. -/
def LookupArm.ofLines? : List String → Option (List LookupArm)
  | [] => none
  | line :: lines =>
    if line :: lines = lookupTail then some []
    else (ofLine? line.toList).bind fun arm => (ofLines? lines).map (arm :: ·)

/-- The arms of the function that renders a key by name. -/
def readLookup? (code : String) : Option (List LookupArm) :=
  if lookupHead.isPrefixOf (codeLines code.toList) then
    LookupArm.ofLines? ((codeLines code.toList).drop lookupHead.length)
  else none

/-! ## §2 Calls -/

/-- A call of the function of an accessor. -/
structure AccessorCall where
  function : String
  arguments : List HostArgument

/-- What the check of an argument comes to. -/
def CodeValue.outcome? : CodeValue → Option (Except LookupFailure HostArgument)
  | .ok (.plain x) => some (.ok (.plain x))
  | .ok .absent => some (.ok (.optional none))
  | .ok (.present (.plain x)) => some (.ok (.optional (some x)))
  | .err (.failure f) => some (.error f)
  | _ => none

/-- The argument that is read, by the functions of support code. -/
def LookupArgument.evaluate? (support : HostCode) (named : List (String × Json)) (a : LookupArgument) :
    Option (Except LookupFailure HostArgument) :=
  (support.call? callDepth a.helper [.arguments named, .plain (.text a.key), .plain (.text a.name),
    .plain (.text a.expected), .function a.reader]).bind CodeValue.outcome?

def LookupArm.evaluate? (support : HostCode) (named : List (String × Json)) (arm : LookupArm) :
    Option (Except LookupFailure AccessorCall) := do
  let arguments ← arm.arguments.mapM (LookupArgument.evaluate? support named)
  return (traverse id arguments).map (.mk arm.function)

/-- The parameters of the function that renders a key by name. -/
def lookupParameters : List String :=
  ((lookupHead.drop 2).take 4).map fun line => String.ofList (line.toList.takeWhile (· ≠ ':'))

/-- The code of the function that renders a key by name, and what its names are looked up in. -/
structure LookupCode where
  /-- The support code. -/
  support : List String
  /-- The modules next to the support code. -/
  modules : List String
  /-- The functions of the module in which the function stands. -/
  functions : List String
  code : String

namespace LookupCode

/-- The function in the module of a contract. -/
def ofModule (g : GeneratedModule) (m : ContractModule) : LookupCode where
  support := supportLines
  modules := g.contracts.map (·.ident)
  functions := m.functionNames
  code := CodeLine.writtenAll (namedCallLines m.calls)

variable (c : LookupCode)

/-- Whether a name that is called is that of one function. A parameter comes before all functions, and is none. -/
def calls (name : String) : Bool := !lookupParameters.contains name && c.functions.count name == 1

/-- Whether the names of the code can be looked up. A module comes before a crate, whose names it does not have. -/
def accepts (arms : List LookupArm) : Bool :=
  arms.all (fun arm => c.calls arm.function) && (headsOfLines c.support).all fun head => !c.modules.contains head

/-- What a call by name comes to. Code with names that cannot be looked up is not accepted, whatever is called. -/
def evaluate? (name : String) (named : List (String × Json)) : Option (Except LookupFailure AccessorCall) := do
  let arms ← readLookup? c.code
  if c.accepts arms then
    match arms.find? fun arm => arm.key == name with
    | some arm => arm.evaluate? (.ofLines c.support) named
    | none => return .error (.keyNotFound name)
  else none

end LookupCode

/-! ## §3 Names and lines -/

/-- Whether a name ends in front of code. -/
def stopsName : List Char → Bool
  | [] => true
  | c :: _ => !isNameChar c

theorem all_isNameChar {w : List Char} (h : isWord w = true) : ∀ c ∈ w, isNameChar c = true := by
  have hchars : ∀ cs : List Char, cs.all isIdentifierChar = true → ∀ c ∈ cs, isNameChar c = true := by
    intro cs hcs c hc
    rw [isNameChar, List.all_eq_true.mp hcs c hc, Bool.true_or]
  unfold isWord at h
  split at h
  · rename_i c cs
    -- Of a raw name, the hash sign is a character too.
    exact List.forall_mem_cons.mpr ⟨rfl, List.forall_mem_cons.mpr ⟨rfl, hchars _ h⟩⟩
  · rename_i c cs _
    exact hchars _ h
  · cases h

/-- A name is read to its end. -/
theorem nameHere_append {w : String} (hw : isWord w.toList = true) {rest : List Char} (hrest : stopsName rest = true) :
    nameHere (w.toList ++ rest) = (w, rest) := by
  have hstop : rest.takeWhile isNameChar = [] ∧ rest.dropWhile isNameChar = rest := by
    cases rest with
    | nil => exact ⟨rfl, rfl⟩
    | cons c cs =>
      have hc : isNameChar c = false := by simpa [stopsName] using hrest
      simp [hc]
  rw [nameHere, List.takeWhile_append_of_pos (all_isNameChar hw), List.dropWhile_append_of_pos (all_isNameChar hw),
    hstop.1, hstop.2, List.append_nil, String.ofList_toList]

theorem exists_indentation (l : CodeLine) :
    ∃ n, l.written.toList = List.replicate n ' ' ++ (l.code.toList ++ ['\n']) := by
  unfold CodeLine.written
  by_cases hempty : l.code.isEmpty = true
  · rw [if_pos hempty, String.isEmpty_iff.mp hempty]
    exact ⟨0, rfl⟩
  · rw [if_neg hempty]
    exact ⟨4 * l.level, by simp⟩

theorem dropWhile_indentation (n : Nat) {cs : List Char} (h : cs.head? ≠ some ' ') :
    (List.replicate n ' ' ++ cs).dropWhile (· == ' ') = cs := by
  rw [List.dropWhile_append_of_pos fun c hc => by simp [List.eq_of_mem_replicate hc]]
  cases cs with
  | nil => rfl
  | cons c cs =>
    have hc : (c == ' ') = false := by simpa using h
    simp [hc]

/-- Code that stands on one line and is not indented on its own. -/
def OneLine (code : List Char) : Prop := '\n' ∉ code ∧ code.head? ≠ some ' '

instance (code : List Char) : Decidable (OneLine code) :=
  inferInstanceAs (Decidable (_ ∧ _))

/-- Lines are read one by one, without their indentation. -/
theorem codeLines_writtenAll {ls : List CodeLine} (h : ∀ l ∈ ls, OneLine l.code.toList) :
    codeLines (CodeLine.writtenAll ls).toList = ls.map (·.code) ++ [""] := by
  unfold codeLines CodeLine.writtenAll
  rw [String.toList_join]
  -- By induction on the lines: each one ends with its own line feed and has no other.
  induction ls with
  | nil => rfl
  | cons l ls ih =>
    obtain ⟨n, hwritten⟩ := exists_indentation l
    have hindented : '\n' ∉ List.replicate n ' ' ++ l.code.toList := by
      simpa using (h l List.mem_cons_self).1
    have htail := ih fun l' hl' => h l' (List.mem_cons_of_mem l hl')
    have hsplit := splitOn_append_cons hindented ((ls.map CodeLine.written).flatMap String.toList)
    rw [List.map_cons, List.flatMap_cons, hwritten, ← List.append_assoc, List.append_assoc, List.singleton_append,
      hsplit, List.map_cons, htail, dropWhile_indentation n (h l List.mem_cons_self).2, String.ofList_toList]
    rfl

/-! ## §4 Arms -/

/-- The argument that the code of an argument is read as. -/
def NamedArgument.lookup (a : NamedArgument) : LookupArgument :=
  ⟨a.type.helper, a.key, a.name, a.type.display, a.type.reader⟩

theorem isWord_helper (t : ParamType) : isWord t.helper.toList = true := by
  unfold ParamType.helper
  cases t.nullable <;> decide

theorem isWord_reader (t : ParamType) : isWord t.reader.toList = true := by
  unfold ParamType.reader
  cases t.builtinOf <;> decide

/-- Behind a comma, the code of an argument is a chain of fixed texts, names and quoted texts. -/
theorem toList_code (a : NamedArgument) (rest : List Char) :
    ", ".toList ++ a.code.toList ++ rest
      = ", super::".toList ++ (a.type.helper.toList ++ ("(args, ".toList ++ ((quoted a.key).toList ++ (", ".toList ++
        ((quoted a.name).toList ++ (", ".toList ++ ((quoted a.type.display).toList ++ (", super::".toList ++
          (a.type.reader.toList ++ (")?".toList ++ rest)))))))))) := by
  have hhelper : (if a.type.nullable then "super::nullable" else "super::typed") = "super::" ++ a.type.helper := by
    unfold ParamType.helper
    cases a.type.nullable <;> rfl
  simp [NamedArgument.code, hhelper, callText, commaList, join, List.intercalate]

theorem newline_not_mem_name {w : List Char} (h : isWord w = true) : '\n' ∉ w := fun hmem =>
  absurd (all_isNameChar h '\n' hmem) (by decide)

theorem newline_not_mem_code (a : NamedArgument) : '\n' ∉ ", ".toList ++ a.code.toList := by
  have hcode := toList_code a []
  rw [List.append_nil, List.append_nil] at hcode
  rw [hcode]
  simp [newline_not_mem_quoted, newline_not_mem_name, isWord_helper, isWord_reader]

namespace LookupArgument

theorem here?_code (a : NamedArgument) (rest : List Char) :
    here? (", ".toList ++ a.code.toList ++ rest) = some (a.lookup, rest) := by
  have hhelper := fun rest => @nameHere_append _ (isWord_helper a.type) ("(args, ".toList ++ rest) rfl
  have hreader := @nameHere_append _ (isWord_reader a.type) (")?".toList ++ rest) rfl
  rw [toList_code]
  simp only [here?, dropStart?_append, hhelper, hreader, quotedText?_quoted, Option.bind_eq_bind, Option.bind_some]
  rfl

/-- Arguments are read up to code that is none. -/
theorem allHere_code {rest : List Char} (hrest : here? rest = none) (as : List NamedArgument) {fuel : Nat}
    (hfuel : as.length < fuel) :
    allHere fuel (as.flatMap (fun a => ", ".toList ++ a.code.toList) ++ rest) = (as.map (·.lookup), rest) := by
  -- By induction on the arguments, each of which takes one step of fuel.
  induction as generalizing fuel with
  | nil =>
    obtain ⟨n, rfl⟩ : ∃ n, fuel = n + 1 := ⟨fuel - 1, by omega⟩
    rw [List.flatMap_nil, List.nil_append, allHere, hrest]
    rfl
  | cons a as ih =>
    rw [List.length_cons] at hfuel
    obtain ⟨n, rfl⟩ : ∃ n, fuel = n + 1 := ⟨fuel - 1, by omega⟩
    rw [List.flatMap_cons, List.append_assoc, allHere, here?_code]
    simp only [ih (show as.length < n by omega)]
    rfl

end LookupArgument

/-- The arm that the code of a key is read as. -/
def NamedCall.lookup (c : NamedCall) : LookupArm := ⟨c.key, c.function, c.arguments.map (·.lookup)⟩

theorem toList_commaList_cons (p : String) (ps : List String) :
    (commaList (p :: ps)).toList = p.toList ++ ps.flatMap fun q => ", ".toList ++ q.toList := by
  unfold commaList join
  rw [String.toList_ofList]
  induction ps generalizing p with
  | nil => simp
  | cons q ps ih =>
    rw [List.map_cons, List.map_cons, List.intercalate_cons_cons, ← List.map_cons, ih, List.flatMap_cons,
      List.append_assoc, List.append_assoc]

theorem toList_armCode (c : NamedCall) :
    c.code.toList = (quoted c.key).toList ++ (" => Ok(".toList ++ (c.function.toList ++ ("(locale, props".toList ++
      (c.arguments.flatMap (fun a => ", ".toList ++ a.code.toList) ++ ")),".toList)))) := by
  have hlist : (commaList ("locale" :: "props" :: c.arguments.map NamedArgument.code)).toList
      = "locale, props".toList ++ c.arguments.flatMap fun a => ", ".toList ++ a.code.toList := by
    rw [toList_commaList_cons, List.flatMap_cons, List.flatMap_map, ← List.append_assoc]
    rfl
  have houter : ∀ code : String, (commaList [code]).toList = code.toList := fun code => by
    rw [toList_commaList_cons, List.flatMap_nil, List.append_nil]
  simp only [NamedCall.code, armCode, callText, String.toList_append, houter, hlist, List.append_assoc]
  rfl

theorem oneLine_code {c : NamedCall} (h : isWord c.function.toList = true) : OneLine c.code.toList := by
  have harguments : '\n' ∉ c.arguments.flatMap fun a => ", ".toList ++ a.code.toList := by
    rw [List.mem_flatMap]
    rintro ⟨a, -, ha⟩
    exact newline_not_mem_code a ha
  rw [toList_armCode]
  refine ⟨?_, ?_⟩
  · simp only [List.mem_append, not_or]
    exact ⟨newline_not_mem_quoted c.key, by decide, newline_not_mem_name h, by decide, harguments, by decide⟩
  · rw [quoted_toList, List.cons_append, List.head?_cons]
    decide

/-- Each argument has characters. -/
theorem length_le_arguments (as : List NamedArgument) :
    as.length ≤ (as.flatMap fun a => ", ".toList ++ a.code.toList).length := by
  induction as with
  | nil => exact Nat.le_refl 0
  | cons a as ih =>
    have hcomma : (", ".toList).length = 2 := rfl
    rw [List.flatMap_cons, List.length_cons, List.length_append, List.length_append, hcomma]
    omega

/-- The arm of a key is read as its key, its function and its arguments. -/
theorem LookupArm.ofLine?_code {c : NamedCall} (h : isWord c.function.toList = true) :
    ofLine? c.code.toList = some c.lookup := by
  have hfunction := fun rest => @nameHere_append _ h ("(locale, props".toList ++ rest) rfl
  -- Each argument has characters of its own, so the length of the text is fuel enough.
  have hfuel : c.arguments.length
      < (c.arguments.flatMap (fun a => ", ".toList ++ a.code.toList) ++ ")),".toList).length := by
    have hclose : (")),".toList).length = 3 := rfl
    have hle := length_le_arguments c.arguments
    rw [List.length_append, hclose]
    omega
  have hclosed : LookupArgument.here? ")),".toList = none := rfl
  have harguments := LookupArgument.allHere_code hclosed c.arguments hfuel
  rw [toList_armCode]
  simp only [ofLine?, dropStart?_append, hfunction, quotedText?_quoted, harguments, Option.bind_eq_bind,
    Option.bind_some]
  rfl

/-! ## §5 Functions -/

theorem LookupArm.ofLines?_code {calls : List NamedCall} (h : ∀ c ∈ calls, isWord c.function.toList = true) :
    ofLines? (calls.map NamedCall.code ++ lookupTail) = some (calls.map (·.lookup)) := by
  induction calls with
  | nil => rfl
  | cons c calls ih =>
    -- An arm begins with a quote, so it is not the last one.
    have hne : c.code :: (calls.map NamedCall.code ++ lookupTail) ≠ lookupTail := by
      intro heq
      have hfirst := congrArg String.toList (List.cons.inj heq).1
      rw [toList_armCode, quoted_toList] at hfirst
      exact absurd (List.cons.inj hfirst).1 (by decide)
    rw [List.map_cons, List.cons_append, ofLines?, if_neg hne, ofLine?_code (h c List.mem_cons_self),
      ih fun c' hc' => h c' (List.mem_cons_of_mem c hc')]
    rfl

theorem oneLine_of_mem_lines {calls : List NamedCall} (h : ∀ c ∈ calls, isWord c.function.toList = true) :
    ∀ l ∈ namedCallLines calls, OneLine l.code.toList := by
  intro l hl
  rw [namedCallLines, List.mem_append, List.mem_append] at hl
  rcases hl with (hhead | harm) | htail
  · revert l
    decide
  · obtain ⟨c, hc, rfl⟩ := List.mem_map.mp harm
    exact oneLine_code (h c hc)
  · revert l
    decide

/-- The code of the function that renders a key by name is read as the arms of the keys. -/
theorem readLookup?_namedCallLines {calls : List NamedCall} (h : ∀ c ∈ calls, isWord c.function.toList = true) :
    readLookup? (CodeLine.writtenAll (namedCallLines calls)) = some (calls.map (·.lookup)) := by
  have hlines : codeLines (CodeLine.writtenAll (namedCallLines calls)).toList
      = lookupHead ++ (calls.map NamedCall.code ++ lookupTail) := by
    rw [codeLines_writtenAll (oneLine_of_mem_lines h)]
    simp [namedCallLines, lookupHead, lookupTail]
  rw [readLookup?, hlines, List.drop_left, LookupArm.ofLines?_code h, if_pos]
  rw [List.isPrefixOf_iff_prefix]
  exact List.prefix_append _ _

/-! ## §6 Tables -/

/-- A failure of the generated module that stands for an error of the table. -/
def LookupFailure.StandsFor : LookupFailure → LookupError → Prop
  | keyNotFound key, .keyNotFound _ key' => key = key'
  | argumentType key parameter expected, .argumentType key' parameter' e _ =>
    key = key' ∧ parameter = parameter' ∧ expected = e.text
  | _, _ => False

namespace LookupFailure

theorem eq_keyNotFound {key : String} {e : LookupError} (h : (keyNotFound key).StandsFor e) :
    ∃ contract, e = .keyNotFound contract key := by
  cases e with
  | keyNotFound contract key' =>
    obtain rfl : key = key' := h
    exact ⟨contract, rfl⟩
  | _ => exact absurd h id

theorem eq_argumentType {key parameter expected : String} {e : LookupError}
    (h : (argumentType key parameter expected).StandsFor e) :
    ∃ e' found, e = .argumentType key parameter e' found ∧ e'.text = expected := by
  cases e with
  | argumentType key' parameter' e' found =>
    obtain ⟨rfl, rfl, rfl⟩ := h
    exact ⟨e', found, rfl, rfl⟩
  | _ => exact absurd h id

theorem eq_of_argumentType {f : LookupFailure} {key parameter : String} {e : Expected} {found : Found}
    (h : f.StandsFor (.argumentType key parameter e found)) : f = argumentType key parameter e.text := by
  cases f with
  | keyNotFound key' => exact absurd h id
  | argumentType key' parameter' expected =>
    obtain ⟨rfl, rfl, rfl⟩ := h
    rfl

end LookupFailure

/-- The argument that the generated module reads for a parameter. -/
def Accessor.readArgument (a : Accessor) (named : List (String × Json)) (p : Parameter) :
    Except LookupFailure HostArgument :=
  (p.type.hostArgument? (Json.field? p.name named)).elim (.error (.argumentType a.key p.name p.type.display)) .ok

namespace Accessor

theorem readArgument_eq_ok_iff {a : Accessor} {named : List (String × Json)} {p : Parameter} {x : HostArgument} :
    a.readArgument named p = .ok x ↔ p.type.hostArgument? (Json.field? p.name named) = some x := by
  unfold readArgument
  cases p.type.hostArgument? (Json.field? p.name named) <;> simp

/-- An argument is refused in the generated module and in the table alike. -/
theorem readArgument_sameOutcome (a : Accessor) (named : List (String × Json)) (p : Parameter) :
    SameOutcome LookupFailure.StandsFor (a.readArgument named p) (a.coerceArgument p (Json.field? p.name named)) := by
  have hiff := p.type.isSome_hostArgument?_iff (Json.field? p.name named)
  unfold readArgument coerceArgument
  cases hread : p.type.hostArgument? (Json.field? p.name named) with
  | some h =>
    rw [hread] at hiff
    obtain ⟨v, hv⟩ := hiff.mp rfl
    rw [hv]
    trivial
  | none =>
    cases hcoerce : p.type.coerce (Json.field? p.name named) with
    | ok v => exact absurd (hiff.mpr ⟨v, hcoerce⟩) (by simp [hread])
    | error found => exact ⟨rfl, rfl, rfl⟩

/-- The check of an argument in the support code is that of its type. -/
theorem evaluate?_argument (a : Accessor) (named : List (String × Json)) (p : Parameter) :
    LookupArgument.evaluate? supportCode named (NamedArgument.mk a.key p.name p.type).lookup
      = some (a.readArgument named p) := by
  have hchecked := SupportCode.readArgument?_call? (reader?_display p.type.builtinOf)
    (p.type.readArgument?_helper (Json.field? p.name named)) a.key p.type.display
  have hread : LookupArgument.evaluate? supportCode named (NamedArgument.mk a.key p.name p.type).lookup
      = (supportCode.call? callDepth p.type.helper [.arguments named, .plain (.text a.key), .plain (.text p.name),
          .plain (.text p.type.display), .function p.type.builtinOf.display]).bind CodeValue.outcome? := rfl
  rw [hread, hchecked, Option.bind_some, readArgument]
  rcases p.type.hostArgument? (Json.field? p.name named) with - | (x | - | x) <;> rfl

/-- The arm of an accessor reads its arguments in the order of its parameters. -/
theorem evaluate?_lookup (a : Accessor) (named : List (String × Json)) :
    (NamedCall.ofAccessor a).lookup.evaluate? supportCode named
      = some ((traverse (a.readArgument named) a.schema).map (.mk a.function)) := by
  have harguments : ((NamedCall.ofAccessor a).lookup.arguments).mapM (LookupArgument.evaluate? supportCode named)
      = some (a.schema.map (a.readArgument named)) := by
    rw [NamedCall.lookup, NamedCall.ofAccessor, List.map_map, List.mapM_map]
    exact mapM_eq_some fun p _ => a.evaluate?_argument named p
  rw [LookupArm.evaluate?, harguments]
  show some ((traverse id (a.schema.map (a.readArgument named))).map _) = _
  rw [traverse_map]
  rfl

end Accessor

/-- Where each value has its key, the value at a key is the first one of the key. -/
theorem find?_values {es : List (String × Accessor)} (h : ∀ e ∈ es, e.2.key = e.1) (name : String) :
    (es.map (·.2)).find? (fun a => a.key == name) = Entries.find? name es := by
  induction es with
  | nil => rfl
  | cons e es ih =>
    have hkey := h e List.mem_cons_self
    have htail := ih fun e' he' => h e' (List.mem_cons_of_mem e he')
    rw [List.map_cons, List.find?_cons, Entries.find?, htail, hkey]
    by_cases hname : name = e.1
    · simp [hname]
    · have hother : (e.1 == name) = false := by simpa using Ne.symm hname
      simp [hname, hother]

/-- What a call by name comes to in the generated module of a table. -/
def Table.lookUp (t : Table) (named : List (String × Json)) (name : String) : Except LookupFailure AccessorCall :=
  match t.accessors.get? name with
  | none => .error (.keyNotFound name)
  | some a => (traverse (a.readArgument named) a.schema).map (.mk a.function)

/-- When the names in the function that renders a key by name are those of what is called. -/
structure Table.NamesFree (t : Table) (contracts : List String) : Prop where
  /-- No accessor has the name of a parameter. -/
  parameters : ∀ a ∈ t.accessors.values, a.ident ∉ ["name", "locale", "props", "args"]
  /-- No accessor has the name of the function itself. -/
  function : ∀ a ∈ t.accessors.values, a.ident ≠ "render_by_name"
  /-- No two accessors have names that the escape of keywords makes the same. -/
  escapes : ∀ word ∈ reserved, ∀ a ∈ t.accessors.values, a.ident = word →
    ∀ b ∈ t.accessors.values, b.ident ≠ word ++ "_"
  /-- No module of a contract has the name of a crate. -/
  crates : ∀ contract ∈ contracts, ofContract contract ∉ ["std", "serde_json"]

/-- Each of the first names of a list is there once exactly when no name is there twice. -/
theorem nodup_concat_iff_count {names : List String} {last : String} :
    (names ++ [last]).Nodup ↔ ∀ name ∈ names, (names ++ [last]).count name = 1 := by
  rw [List.nodup_iff_count_eq_one]
  refine ⟨fun h name hname => h name (List.mem_append_left _ hname), fun h name hname => ?_⟩
  rcases List.mem_append.mp hname with hmem | hlast
  · exact h name hmem
  · obtain rfl := List.mem_singleton.mp hlast
    by_cases hmem : name ∈ names
    · exact h name hmem
    · rw [List.count_append, List.count_eq_zero.mpr hmem, List.count_singleton_self]

/-- The module of a contract is written in lower case, so it is no type of the support code. -/
theorem ofContract_mem_heads_iff (contract : String) :
    ofContract contract ∈ headsOfLines supportLines ↔ ofContract contract ∈ ["std", "serde_json"] := by
  -- The name of a module is in small letters, so the type is none.
  have hlower : ∀ cs, escaped (String.ofList (accessorChars cs)) ≠ "LookupError" := by
    intro cs heq
    have hident : isIdentifier (String.ofList (accessorChars cs)).toList = true := by
      rw [String.toList_ofList]
      exact isIdentifier_accessorChars cs
    have htype := (escaped_eq_plain_iff hident (by decide) (by decide) (by decide)).mp heq
    have hcapital : 'L' ∈ (String.ofList (accessorChars cs)).toList := by
      rw [htype]
      decide
    rw [String.toList_ofList] at hcapital
    exact absurd (not_isCapital_of_mem_accessorChars hcapital) (by decide)
  have htype : ofContract contract ≠ "LookupError" := hlower _
  rw [mem_headsOfLines_supportLines]
  simp [htype]

namespace LookupCode

theorem calls_escaped_iff {ident : String} (h : isIdentifier ident.toList = true) {c : LookupCode} :
    c.calls (escaped ident) = true ↔
      ident ∉ ["name", "locale", "props", "args"] ∧ c.functions.count (escaped ident) = 1 := by
  have hparameters : lookupParameters = ["name", "locale", "props", "args"] := by decide
  -- The names of the parameters need no escape.
  have hplain : ∀ word ∈ ["name", "locale", "props", "args"], isIdentifier word.toList = true ∧ escaped word = word ∧
      word ∉ reserved ∧ ∀ w ∈ reserved, word ≠ w ++ "_" := by decide
  have hword : ∀ word ∈ ["name", "locale", "props", "args"], escaped ident = word ↔ ident = word := by
    intro word hmem
    obtain ⟨hident, hescape, hfree⟩ := hplain word hmem
    exact escaped_eq_plain_iff h hident hescape hfree
  have hmem : escaped ident ∈ ["name", "locale", "props", "args"] ↔ ident ∈ ["name", "locale", "props", "args"] :=
    ⟨fun hescaped => ((hword _ hescaped).mp rfl).symm ▸ hescaped, fun hident => ((hword _ hident).mpr rfl).symm ▸ hident⟩
  rw [calls, hparameters, Bool.and_eq_true, Bool.not_eq_true', beq_iff_eq, List.contains_eq_mem,
    decide_eq_false_iff_not, hmem]

/-- The code of the function of a table, in the module that is generated for tables. -/
def ofTable (s : Settings) (tables : List Table) (t : Table) : LookupCode :=
  ofModule (.ofTables s tables) (.ofTable s.properties t)

section Table

variable {t : Table} (hkeys : ∀ key a, t.accessors.get? key = some a → a.key = key ∧ a.ident = accessor key)
variable (hnodup : (t.accessors.values.map (·.ident)).Nodup) (s : Settings) (tables : List Table)
include hkeys

theorem ident_of_mem_values {a : Accessor} (ha : a ∈ t.accessors.values) : isIdentifier a.ident.toList = true := by
  obtain ⟨e, he, rfl⟩ := List.mem_map.mp ha
  rw [(hkeys e.1 e.2 (KeyMap.mem_entries_iff.mp he)).2]
  exact isIdentifier_accessor e.1

theorem readLookup?_ofTable : readLookup? (ofTable s tables t).code
    = some (t.accessors.values.map fun a => (NamedCall.ofAccessor a).lookup) := by
  have hwords : ∀ c ∈ (ContractModule.ofTable s.properties t).calls, isWord c.function.toList = true := by
    intro c hc
    obtain ⟨a, ha, rfl⟩ := List.mem_map.mp hc
    exact isWord_escaped (ident_of_mem_values hkeys ha)
  rw [ofTable, ofModule, readLookup?_namedCallLines hwords, ContractModule.ofTable, List.map_map]
  rfl

include hnodup in
/-- The names of the function of a table can be looked up exactly when they are free. -/
theorem accepts_ofTable :
    (ofTable s tables t).accepts (t.accessors.values.map fun a => (NamedCall.ofAccessor a).lookup) = true ↔
      t.NamesFree (tables.map (·.contract)) := by
  have hident : ∀ a ∈ t.accessors.values, isIdentifier a.ident.toList = true := fun a ha => ident_of_mem_values hkeys ha
  have hidents : ∀ ident ∈ t.accessors.values.map (·.ident), isIdentifier ident.toList = true := by
    intro ident hmem
    obtain ⟨a, ha, rfl⟩ := List.mem_map.mp hmem
    exact hident a ha
  have hnames := ContractModule.functionNames_ofTable s.properties hident
  have hmodules : (ofTable s tables t).modules = tables.map fun t => ofContract t.contract := by
    rw [ofTable, ofModule, GeneratedModule.ofTables, List.map_map]
    rfl
  have hcalls : (∀ a ∈ t.accessors.values, (ofTable s tables t).calls (escaped a.ident) = true) ↔
      (∀ a ∈ t.accessors.values, a.ident ∉ ["name", "locale", "props", "args"]) ∧
        ∀ a ∈ t.accessors.values,
          (ContractModule.ofTable s.properties t).functionNames.count (escaped a.ident) = 1 := by
    rw [← forall₂_and]
    exact forall₂_congr fun a ha => calls_escaped_iff (hident a ha)
  -- Each function is there once when all names are distinct.
  have hcount : (∀ a ∈ t.accessors.values,
      (ContractModule.ofTable s.properties t).functionNames.count (escaped a.ident) = 1) ↔
        (∀ a ∈ t.accessors.values, a.ident ≠ "render_by_name") ∧
          ∀ word ∈ reserved, ∀ a ∈ t.accessors.values, a.ident = word →
            ∀ b ∈ t.accessors.values, b.ident ≠ word ++ "_" := by
    have hdistinct := nodup_functionNames_iff hnodup hidents
    rw [nodup_concat_iff_count] at hdistinct
    rw [hnames]
    simpa using hdistinct
  have hcrates : (∀ head ∈ headsOfLines supportLines, head ∉ tables.map fun t => ofContract t.contract) ↔
      ∀ contract ∈ tables.map (·.contract), ofContract contract ∉ ["std", "serde_json"] := by
    refine ⟨fun h contract hmem hcrate => ?_, fun h head hhead hmem => ?_⟩
    · obtain ⟨u, hu, rfl⟩ := List.mem_map.mp hmem
      exact h _ ((ofContract_mem_heads_iff u.contract).mpr hcrate) (List.mem_map.mpr ⟨u, hu, rfl⟩)
    · obtain ⟨u, hu, rfl⟩ := List.mem_map.mp hmem
      exact h u.contract (List.mem_map_of_mem hu) ((ofContract_mem_heads_iff u.contract).mp hhead)
  have haccepts : (ofTable s tables t).accepts
        (t.accessors.values.map fun a => (NamedCall.ofAccessor a).lookup) = true ↔
      (∀ a ∈ t.accessors.values, (ofTable s tables t).calls (escaped a.ident) = true) ∧
        ∀ head ∈ headsOfLines supportLines, head ∉ tables.map fun t => ofContract t.contract := by
    rw [accepts, hmodules, Bool.and_eq_true, List.all_map, List.all_eq_true, List.all_eq_true]
    refine and_congr Iff.rfl (forall₂_congr fun head hhead => ?_)
    rw [Bool.not_eq_true', List.contains_eq_mem, decide_eq_false_iff_not]
  rw [haccepts, hcalls, hcount, hcrates]
  exact ⟨fun ⟨⟨hparameters, hfunction, hescapes⟩, hcrates⟩ => ⟨hparameters, hfunction, hescapes, hcrates⟩,
    fun h => ⟨⟨h.parameters, h.function, h.escapes⟩, h.crates⟩⟩

include hnodup in
/-- Code with names that are not free is not accepted. -/
theorem evaluate?_eq_none (h : ¬ t.NamesFree (tables.map (·.contract))) (name : String) (named : List (String × Json)) :
    (ofTable s tables t).evaluate? name named = none := by
  rw [evaluate?, readLookup?_ofTable hkeys]
  exact if_neg (mt (accepts_ofTable hkeys hnodup s tables).mp h)

include hnodup in
theorem evaluate?_of_namesFree (h : t.NamesFree (tables.map (·.contract))) (name : String)
    (named : List (String × Json)) : (ofTable s tables t).evaluate? name named = some (t.lookUp named name) := by
  have hfind : (t.accessors.values.map fun a => (NamedCall.ofAccessor a).lookup).find? (fun arm => arm.key == name)
      = (t.accessors.get? name).map fun a => (NamedCall.ofAccessor a).lookup := by
    have hvalues := find?_values (fun e he => (hkeys e.1 e.2 (KeyMap.mem_entries_iff.mp he)).1) name
    rw [KeyMap.get?, ← hvalues, List.find?_map]
    rfl
  rw [evaluate?, readLookup?_ofTable hkeys]
  refine (if_pos ((accepts_ofTable hkeys hnodup s tables).mpr h)).trans ?_
  rw [hfind, Table.lookUp]
  cases t.accessors.get? name with
  | none => rfl
  | some a => exact a.evaluate?_lookup named

end Table

end LookupCode

section Table

variable {t : Table} {named : List (String × Json)}

theorem renderByName_of_none {locale : String} (hlocale : locale ∈ t.locales) {name : String}
    (h : t.accessors.get? name = none) {properties : PropertySource} :
    t.renderByName name locale named properties = .error (.keyNotFound t.contract name) := by
  rw [Table.renderByName, Table.checkLocale_of_mem hlocale, Table.lookup, h]
  rfl

/-- A call by name has the same outcome in the generated module and in the table. -/
theorem lookUp_sameOutcome {locale : String} (hlocale : locale ∈ t.locales) (name : String)
    (properties : PropertySource) :
    SameOutcome LookupFailure.StandsFor (t.lookUp named name) (t.renderByName name locale named properties) := by
  unfold Table.lookUp
  cases ha : t.accessors.get? name with
  | none =>
    rw [renderByName_of_none hlocale ha]
    exact rfl
  | some a =>
    have harguments : SameOutcome LookupFailure.StandsFor (traverse (a.readArgument named) a.schema)
        (a.namedArguments named) :=
      traverse_sameOutcome fun p _ => a.readArgument_sameOutcome named p
    rw [Table.renderByName_of_get? ha, Table.checkLocale_of_mem hlocale]
    exact harguments.map _ _

/-- Only a name without accessor is not found. -/
theorem renderByName_eq_keyNotFound_iff {locale : String} (hlocale : locale ∈ t.locales) {name contract key : String}
    {properties : PropertySource} :
    t.renderByName name locale named properties = .error (.keyNotFound contract key) ↔
      t.accessors.get? name = none ∧ contract = t.contract ∧ key = name := by
  cases ha : t.accessors.get? name with
  | none => simp [renderByName_of_none hlocale ha, eq_comm]
  | some a =>
    -- Every other error is that of an argument.
    rw [Table.renderByName_of_get? ha, Table.checkLocale_of_mem hlocale]
    refine iff_of_false (fun h => ?_) fun h => Option.some_ne_none a h.1
    change (a.namedArguments named).map _ = .error _ at h
    cases hargs : a.namedArguments named with
    | ok accepted =>
      rw [hargs] at h
      cases h
    | error e =>
      rw [hargs] at h
      obtain rfl := Except.error.inj h
      obtain ⟨p, -, hp⟩ := exists_of_traverse_eq_error hargs
      unfold Accessor.coerceArgument at hp
      cases hcoerce : p.type.coerce (Json.field? p.name named) with
      | ok v => simp [hcoerce, Except.mapError] at hp
      | error found => simp [hcoerce, Except.mapError] at hp

end Table

/-! ## §7 Compilations -/

namespace Compile

/-- The tables of a compilation have the locales of the settings, and an accessor for each key. -/
theorem table_of_compile {s : Settings} {cs : List Contract} {loader : SourceLoader} {o : CompileOutput}
    (h : compile s cs loader = .ok o) {t : Table} (ht : t ∈ o.tables) :
    t.locales = s.locales ∧ (∀ key a, t.accessors.get? key = some a → a.key = key ∧ a.ident = accessor key) ∧
      (t.accessors.values.map (·.ident)).Nodup := by
  obtain ⟨runs, rfl, htables⟩ := exists_runs h
  rw [htables] at ht
  obtain ⟨run, -, rfl⟩ := List.mem_map.mp ht
  refine ⟨Table.locales_of_ofCatalog run.generated, fun key a ha => ?_, ?_⟩
  · rw [Table.get?_accessors run.generated, Option.map_eq_some_iff] at ha
    obtain ⟨e, -, rfl⟩ := ha
    exact ⟨rfl, rfl⟩
  · rw [Table.idents_accessors run.generated]
    exact (Table.ofCatalog_eq_ok_iff.mp run.generated).1.1

/-- Sources with a key that is named as a parameter of the function that renders a key by name. -/
def Greetings.named : SourceLoader := fun _ _ => .found "en_us/greetings.yaml" (.branch [("name", .leaf ⟨"Hi", none⟩)])

end Compile

end Phrasebook
