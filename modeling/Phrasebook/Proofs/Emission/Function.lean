import Phrasebook.Emission.Contract
import Phrasebook.Proofs.Emission.Expression

/-!
# Evaluation of functions

The code of the function of an accessor means the expression of the variant that it is called with.

- `lex_functionHead`, `lex_armCode`: how the lines of a function are read.
- `AccessorFunction.body?_code`: the body means the expression of the arm of the variant, or else the last one.
- `AccessorFunction.evaluate_item`: so does the function as a whole, when its parameters have distinct names.
-/

namespace Phrasebook

open Phrasebook.Text

/-! ## §1 Parameters -/

theorem lex_borrowedBase (t : ParamType) :
    Stoppable t.borrowedBase.toList ∧ ∀ x ∈ lex t.borrowedBase.toList, isSimple x = true := by
  have hreference : Complete ("&".toList) := fun rest => rfl
  have hpath : Complete ("&serde_json::".toList) := fun rest => rfl
  unfold ParamType.borrowedBase
  -- Each kind has its own fixed name, two of them behind a reference.
  cases t.builtinOf with
  | integer => exact ⟨stoppable_of_isWord rfl, by decide⟩
  | float => exact ⟨stoppable_of_isWord rfl, by decide⟩
  | boolean => exact ⟨stoppable_of_isWord rfl, by decide⟩
  | text =>
    have hword : Stoppable ("str".toList) := stoppable_of_isWord rfl
    exact ⟨hreference.append_stoppable hword, by decide⟩
  | any =>
    have hword : Stoppable ("Value".toList) := stoppable_of_isWord rfl
    exact ⟨hpath.append_stoppable hword, by decide⟩

/-- The type of a parameter holds no bracket and no comma. -/
theorem lex_borrowedType (t : ParamType) :
    Stoppable t.borrowedType.toList ∧ ∀ x ∈ lex t.borrowedType.toList, isSimple x = true := by
  obtain ⟨hbase, hbaseSimple⟩ := lex_borrowedBase t
  unfold ParamType.borrowedType
  cases t.nullable with
  | false => exact ⟨hbase, hbaseSimple⟩
  | true =>
    -- The angle brackets of a type that admits null are marks like others.
    have hopen : Complete ("Option<".toList) := fun rest => rfl
    have hclose : Complete ['>'] := fun rest => rfl
    have hinner : Complete (t.borrowedBase.toList ++ ['>']) := hbase.append_complete hclose rfl
    have hcode : ("Option<" ++ t.borrowedBase ++ ">").toList = "Option<".toList ++ (t.borrowedBase.toList ++ ['>']) := by
      simp
    have hopenSimple : ∀ x ∈ lex "Option<".toList, isSimple x = true := by decide
    have hcloseSimple : ∀ x ∈ lex ['>'], isSimple x = true := by decide
    rw [if_pos rfl, hcode]
    refine ⟨(hopen.append hinner).stoppable, ?_⟩
    rw [hopen, hbase ['>'] rfl]
    intro x hx
    rcases List.mem_append.mp hx with hx | hx
    · exact hopenSimple x hx
    · rcases List.mem_append.mp hx with hx | hx
      · exact hbaseSimple x hx
      · exact hcloseSimple x hx

/-- The name and the type of a parameter can be read in its code. -/
def FunctionParameter.Readable (p : FunctionParameter) : Prop :=
  isWord p.ident.toList = true ∧ Stoppable p.type.toList ∧ ∀ x ∈ lex p.type.toList, isSimple x = true

/-- The tokens of a parameter. -/
def FunctionParameter.tokens (p : FunctionParameter) : List Token := .word p.ident :: .mark ':' :: lex p.type.toList

theorem lex_parameterCode {p : FunctionParameter} (h : p.Readable) :
    Stoppable p.code.toList ∧ lex p.code.toList = p.tokens := by
  obtain ⟨hident, htype, -⟩ := h
  have hcolon : Complete [':', ' '] := fun rest => rfl
  have hcode : p.code.toList = (p.ident.toList ++ [':', ' ']) ++ p.type.toList := by
    simp [FunctionParameter.code]
  have hhead : Complete (p.ident.toList ++ [':', ' ']) :=
    (stoppable_of_isWord hident).append_complete hcolon rfl
  rw [hcode]
  refine ⟨hhead.append_stoppable htype, ?_⟩
  rw [hhead, stoppable_of_isWord hident _ rfl, lex_of_isWord hident, String.ofList_toList]
  rfl

/-- No parameter ends the list of parameters. -/
theorem simple_of_mem_tokens {p : FunctionParameter} (h : p.Readable) : ∀ x ∈ p.tokens, isSimple x = true := by
  intro x hx
  rcases List.mem_cons.mp hx with rfl | hx
  · simp [isSimple]
  · rcases List.mem_cons.mp hx with rfl | hx
    · decide
    · exact h.2.2 x hx

/-! ## §2 Lines -/

/-- The first line of a function is read as its name and its parameters. -/
theorem lex_functionHead {ident : String} {ps : List FunctionParameter} (hident : isWord ident.toList = true)
    (hps : ∀ p ∈ ps, p.Readable) :
    Complete (functionHead ident ps).toList ∧
      lex (functionHead ident ps).toList = lex "pub fn".toList ++ .word ident :: .mark '(' ::
        ([Token.mark ','].intercalate (ps.map FunctionParameter.tokens) ++
          lex ") -> String \x7b".toList) := by
  have hstart : Complete ("pub fn ".toList) := fun rest => rfl
  have hend : Complete (" -> String \x7b".toList) := fun rest => rfl
  have hargs : ∀ a ∈ ps.map FunctionParameter.code, Stoppable a.toList := by
    intro a ha
    obtain ⟨p, hp, rfl⟩ := List.mem_map.mp ha
    exact (lex_parameterCode (hps p hp)).1
  obtain ⟨hcall, hlex⟩ := lex_callText (stoppable_of_isWord hident) hargs
  have hparts : (ps.map FunctionParameter.code).map (fun a => lex a.toList)
      = ps.map FunctionParameter.tokens := by
    rw [List.map_map]
    apply List.map_congr_left
    intro p hp
    exact (lex_parameterCode (hps p hp)).2
  unfold functionHead
  rw [String.toList_append, String.toList_append]
  refine ⟨(hstart.append hcall).append hend, ?_⟩
  rw [hstart.append hcall, hstart, hlex, hparts, lex_of_isWord hident, String.ofList_toList]
  simp only [List.append_assoc, List.cons_append, List.nil_append]
  rfl

/-- An arm is read as its pattern and its result. -/
theorem lex_armCode {pattern result : String} (hpattern : Stoppable pattern.toList) (hresult : Complete result.toList) :
    Complete (armCode pattern result).toList ∧
      lex (armCode pattern result).toList
        = (lex pattern.toList ++ .mark '=' :: .mark '>' :: lex result.toList) ++ [.mark ','] := by
  have harrow : Complete [' ', '=', '>', ' '] := fun rest => rfl
  have hcomma : Complete [','] := fun rest => rfl
  have hhead : Complete (pattern.toList ++ [' ', '=', '>', ' ']) := hpattern.append_complete harrow rfl
  have hcode : (armCode pattern result).toList
      = ((pattern.toList ++ [' ', '=', '>', ' ']) ++ result.toList) ++ [','] := by
    simp [armCode]
  rw [hcode]
  refine ⟨(hhead.append hresult).append hcomma, ?_⟩
  rw [hhead.append hresult, hhead, hpattern _ rfl, List.append_assoc (lex pattern.toList)]
  rfl

/-! ## §3 Bodies -/

namespace AccessorFunction

/-- The names and arguments of a function can be read in its code. -/
structure Readable (f : AccessorFunction) : Prop where
  /-- It has a name. -/
  ident : isWord f.ident.toList = true
  parameters : ∀ p ∈ f.parameters, p.Readable
  variants : ∀ arm ∈ f.arms, isWord arm.1.toList = true
  arms : ∀ arm ∈ f.arms, ∀ a ∈ arm.2.arguments, a.Readable
  /-- The arguments of its last expression can be read. -/
  fallback : ∀ a ∈ f.fallback.arguments, a.Readable

/-- The expression that a function makes the text of a variant with. -/
def chosen (f : AccessorFunction) (variant : String) : TextExpression :=
  ((f.arms.find? fun arm => arm.1 == variant).map (·.2)).getD f.fallback

/-- The tokens of an arm. -/
def armTokens (arm : String × TextExpression) : List Token :=
  .word "Locale" :: .mark ':' :: .mark ':' :: .word arm.1 :: .mark '=' :: .mark '>' :: lex arm.2.code.toList

/-- The tokens of the last arm. -/
def wildcardTokens (e : TextExpression) : List Token := .word "_" :: .mark '=' :: .mark '>' :: lex e.code.toList

/-- A variant takes its own arm, or else that of the wildcard. -/
theorem armFor?_arms (variant : String) (arms : List (String × TextExpression)) (fallback : TextExpression)
    (rest : List (List Token)) :
    armFor? variant (arms.map armTokens ++ wildcardTokens fallback :: rest)
      = some (lex (((arms.find? fun arm => arm.1 == variant).map (·.2)).getD fallback).code.toList) := by
  -- The arms are tried in their order, and the wildcard stands behind them.
  induction arms with
  | nil => rfl
  | cons arm arms ih =>
    rw [List.map_cons, List.cons_append, armTokens, armFor?]
    by_cases hvariant : arm.1 = variant
    · have hfind : ((arm :: arms).find? fun arm => arm.1 == variant) = some arm :=
        List.find?_cons_of_pos (by simpa using hvariant)
      rw [if_pos hvariant, hfind]
      rfl
    · have hfind : ((arm :: arms).find? fun arm => arm.1 == variant) = arms.find? fun arm => arm.1 == variant :=
        List.find?_cons_of_neg (by simpa using hvariant)
      rw [if_neg hvariant, ih, hfind]

theorem lex_arm {arm : String × TextExpression} (hvariant : isWord arm.1.toList = true)
    (harguments : ∀ a ∈ arm.2.arguments, a.Readable) :
    Complete (armCode (localePath arm.1) arm.2.code).toList ∧ Closed (armTokens arm) ∧
      lex (armCode (localePath arm.1) arm.2.code).toList = armTokens arm ++ [.mark ','] := by
  have hpath : Complete ("Locale::".toList) := fun rest => rfl
  have hpattern : Stoppable (localePath arm.1).toList := by
    rw [localePath, String.toList_append]
    exact hpath.append_stoppable (stoppable_of_isWord hvariant)
  have hpatternLex : lex (localePath arm.1).toList = [.word "Locale", .mark ':', .mark ':', .word arm.1] := by
    rw [localePath, String.toList_append, hpath, lex_of_isWord hvariant, String.ofList_toList]
    rfl
  have hresult := TextExpression.isExpression_code harguments
  obtain ⟨harm, hlex⟩ := lex_armCode hpattern hresult.complete
  rw [hpatternLex] at hlex
  refine ⟨harm, ?_, hlex⟩
  have hhead : Closed [.word "Locale", .mark ':', .mark ':', .word arm.1, .mark '=', .mark '>'] :=
    closed_of_isSimple (by simp [isSimple])
  exact hhead.append hresult.closed

theorem lex_wildcard {e : TextExpression} (harguments : ∀ a ∈ e.arguments, a.Readable) :
    Complete (armCode "_" e.code).toList ∧ Closed (wildcardTokens e) ∧
      lex (armCode "_" e.code).toList = wildcardTokens e ++ [.mark ','] := by
  have hresult := TextExpression.isExpression_code harguments
  have hpattern : isWord "_".toList = true := rfl
  obtain ⟨harm, hlex⟩ := lex_armCode (stoppable_of_isWord hpattern) hresult.complete
  refine ⟨harm, ?_, hlex⟩
  have hhead : Closed [.word "_", .mark '=', .mark '>'] := closed_of_isSimple (by simp [isSimple])
  exact hhead.append hresult.closed

/-- The tokens of the body. -/
def bodyTokens (f : AccessorFunction) : List Token := f.body.flatMap fun l => lex l.code.toList

variable {f : AccessorFunction}

theorem body_of_arms (h : f.arms ≠ []) :
    f.body = ⟨2, "match locale \x7b"⟩ :: f.arms.map (fun arm => ⟨3, armCode (localePath arm.1) arm.2.code⟩)
      ++ [⟨3, armCode "_" f.fallback.code⟩, ⟨2, "\x7d"⟩] := by
  rw [body, if_neg (by simpa using h)]

theorem body_of_arms_eq_nil (h : f.arms = []) : f.body = [⟨2, f.fallback.code⟩] := by
  rw [body, if_pos (List.isEmpty_iff.mpr h)]

/-- Each line of the body can be read apart from the others. -/
theorem complete_of_mem_body (h : f.Readable) : ∀ l ∈ f.body, Complete l.code.toList := by
  intro l hl
  -- Without arms, the body is one expression; otherwise it is a match with one line for each arm.
  by_cases hnone : f.arms = []
  · rw [body_of_arms_eq_nil hnone] at hl
    obtain rfl := List.mem_singleton.mp hl
    exact (TextExpression.isExpression_code h.fallback).complete
  · rw [body_of_arms hnone] at hl
    have hmatch : Complete ("match locale \x7b".toList) := fun rest => rfl
    have hclose : Complete ("\x7d".toList) := fun rest => rfl
    rcases List.mem_append.mp hl with hl | hl
    · rcases List.mem_cons.mp hl with rfl | hl
      · exact hmatch
      · obtain ⟨arm, harm, rfl⟩ := List.mem_map.mp hl
        exact (lex_arm (h.variants arm harm) (h.arms arm harm)).1
    · rcases List.mem_cons.mp hl with rfl | hl
      · exact (lex_wildcard h.fallback).1
      · obtain rfl := List.mem_singleton.mp hl
        exact hclose

/-- The tokens of a match are those of the arms, each ended by a comma, between its head and a brace. -/
theorem bodyTokens_of_arms (h : f.Readable) (hne : f.arms ≠ []) :
    f.bodyTokens = lex "match locale \x7b".toList ++
      ((f.arms.map armTokens ++ [wildcardTokens f.fallback]).flatMap (fun p => p ++ [.mark ',']) ++ [.mark '}']) := by
  have harms : (f.arms.map (fun arm => (⟨3, armCode (localePath arm.1) arm.2.code⟩ : CodeLine))).flatMap
      (fun l => lex l.code.toList) = (f.arms.map armTokens).flatMap fun p => p ++ [.mark ','] := by
    rw [List.flatMap_map, List.flatMap_map]
    apply List.flatMap_congr
    intro arm harm
    exact (lex_arm (h.variants arm harm) (h.arms arm harm)).2.2
  have hwildcard := (lex_wildcard h.fallback).2.2
  rw [bodyTokens, body_of_arms hne, List.cons_append, List.flatMap_cons, List.flatMap_append, harms,
    List.flatMap_append, List.flatMap_cons, List.flatMap_singleton, List.flatMap_singleton, hwildcard]
  simp only [List.append_assoc]
  rfl

/-- The body means the expression that is chosen for a variant. -/
theorem body?_code (h : f.Readable) (s : CodeScope) (variant : String) :
    s.body? variant f.bodyTokens = s.expression? (lex (f.chosen variant).code.toList) := by
  by_cases hnone : f.arms = []
  · -- Without arms the body is the last expression alone, and no expression begins like a match.
    have hnot := (TextExpression.isExpression_code h.fallback).behind []
    rw [List.append_nil] at hnot
    have hchosen : f.chosen variant = f.fallback := by
      rw [chosen, hnone]
      rfl
    rw [bodyTokens, body_of_arms_eq_nil hnone, List.flatMap_singleton, CodeScope.body?, hnot, hchosen]
  · have hparts : ∀ p ∈ f.arms.map armTokens ++ [wildcardTokens f.fallback], Closed p := by
      intro p hp
      rcases List.mem_append.mp hp with hp | hp
      · obtain ⟨arm, harm, rfl⟩ := List.mem_map.mp hp
        exact (lex_arm (h.variants arm harm) (h.arms arm harm)).2.1
      · obtain rfl := List.mem_singleton.mp hp
        exact (lex_wildcard h.fallback).2.1
    have hchosen := armFor?_arms variant f.arms f.fallback [[]]
    rw [bodyTokens_of_arms h hnone, CodeScope.body?, behind?_append]
    show ((before? '}' _).bind fun arms => armFor? variant (commaParts 0 arms)).bind s.expression? = _
    rw [before?_append, Option.bind_some, commaParts_ended hparts, List.append_assoc, List.singleton_append, hchosen]
    rfl

theorem readable_of_mem_chosen (h : f.Readable) (variant : String) :
    ∀ a ∈ (f.chosen variant).arguments, a.Readable := by
  unfold chosen
  cases hfind : f.arms.find? fun arm => arm.1 == variant with
  | none => exact h.fallback
  | some arm => exact h.arms arm (List.mem_of_find?_eq_some hfind)

/-! ## §4 Functions -/

/-- The code of a function, without the line that documents it. -/
def item (f : AccessorFunction) : String := CodeLine.writtenAll (f.lines.drop 1)

theorem lex_item (h : f.Readable) :
    lex f.item.toList = lex (functionHead f.ident f.parameters).toList ++ (f.bodyTokens ++ [.mark '}']) := by
  have hlines : f.lines.drop 1 = ⟨1, functionHead f.ident f.parameters⟩ :: (f.body ++ [⟨1, "\x7d"⟩]) := rfl
  have hclose : Complete ("\x7d".toList) := fun rest => rfl
  have hcomplete : ∀ l ∈ f.lines.drop 1, Complete l.code.toList := by
    rw [hlines]
    intro l hl
    rcases List.mem_cons.mp hl with rfl | hl
    · exact (lex_functionHead h.ident h.parameters).1
    · rcases List.mem_append.mp hl with hl | hl
      · exact complete_of_mem_body h l hl
      · obtain rfl := List.mem_singleton.mp hl
        exact hclose
  rw [item, lex_writtenAll hcomplete, hlines, List.flatMap_cons, List.flatMap_append, List.flatMap_singleton]
  rfl

/-- The line that documents a function is a comment, so long as its key is on one line. -/
theorem lex_lines (hkey : '\n' ∉ f.key.toList) : lex (CodeLine.writtenAll f.lines).toList = lex f.item.toList := by
  have hcomment : '\n' ∉ "/ \x60".toList ++ (f.key.toList ++ ['\x60']) := by
    have hstart : '\n' ∉ "/ \x60".toList := by decide
    rw [List.mem_append, List.mem_append, not_or, not_or]
    exact ⟨hstart, hkey, by decide⟩
  have hline : (CodeLine.writtenAll f.lines).toList = List.replicate 4 ' ' ++ ('/' :: '/' ::
      (("/ \x60".toList ++ (f.key.toList ++ ['\x60'])) ++ '\n' :: f.item.toList)) := by
    simp [lines, item, CodeLine.writtenAll, CodeLine.written, String.toList_join]
  rw [hline, lex_blanks]
  exact tokensFrom_comment hcomment

private theorem ne_of_mem_parameters {ps : List FunctionParameter} (h : ∀ p ∈ ps, p.Readable) :
    ∀ x ∈ [Token.mark ','].intercalate (ps.map FunctionParameter.tokens), decide (x ≠ .mark ')') = true := by
  intro x hx
  rcases mem_of_mem_intercalate hx with rfl | ⟨part, hpart, hx⟩
  · decide
  · obtain ⟨p, hp, rfl⟩ := List.mem_map.mp hpart
    have hsimple := simple_of_mem_tokens (h p hp) x hx
    simp only [isSimple, Bool.and_eq_true] at hsimple
    exact hsimple.1.2

/-- The parameters reach to the first closing bracket. -/
theorem takeWhile_parameters {ps : List FunctionParameter} (h : ∀ p ∈ ps, p.Readable) (rest : List Token) :
    ([Token.mark ','].intercalate (ps.map FunctionParameter.tokens) ++
      (lex ") -> String \x7b".toList ++ rest)).takeWhile (fun t => t ≠ .mark ')')
      = [Token.mark ','].intercalate (ps.map FunctionParameter.tokens) := by
  have hend : lex ") -> String \x7b".toList = .mark ')' :: lex " -> String \x7b".toList := rfl
  rw [List.takeWhile_append_of_pos (ne_of_mem_parameters h), hend, List.cons_append,
    List.takeWhile_cons_of_neg (by simp), List.append_nil]

theorem dropWhile_parameters {ps : List FunctionParameter} (h : ∀ p ∈ ps, p.Readable) (rest : List Token) :
    ([Token.mark ','].intercalate (ps.map FunctionParameter.tokens) ++
      (lex ") -> String \x7b".toList ++ rest)).dropWhile (fun t => t ≠ .mark ')')
      = lex ") -> String \x7b".toList ++ rest := by
  have hend : lex ") -> String \x7b".toList = .mark ')' :: lex " -> String \x7b".toList := rfl
  rw [List.dropWhile_append_of_pos (ne_of_mem_parameters h), hend, List.cons_append,
    List.dropWhile_cons_of_neg (by simp)]

/-- **Functions**: the code of a function means the expression that is chosen for the variant, the names of its
parameters standing for the texts that it is called with. -/
theorem evaluate_item (h : f.Readable) {c : FunctionCall} {names : List String}
    (hnames : f.parameters.map (·.ident) = "locale" :: "props" :: names) (hnodup : ("locale" :: "props" :: names).Nodup)
    (hlength : names.length = c.arguments.length) {shown : FormatArgument → String}
    (hshown : ∀ a ∈ (f.chosen c.variant).arguments, a.text? ⟨names.zip c.arguments, c.fields⟩ = some (shown a)) :
    c.evaluate f.item = some ((f.chosen c.variant).textOf shown) := by
  have hparts : ∀ part ∈ f.parameters.map FunctionParameter.tokens, Closed part := by
    intro part hpart
    obtain ⟨p, hp, rfl⟩ := List.mem_map.mp hpart
    exact closed_of_isSimple (simple_of_mem_tokens (h.parameters p hp))
  have hpartsNe : f.parameters.map FunctionParameter.tokens ≠ [] := by
    intro hnil
    have hempty : f.parameters = [] := List.map_eq_nil_iff.mp hnil
    rw [hempty] at hnames
    cases hnames
  have hread : (f.parameters.map FunctionParameter.tokens).mapM parameterName?
      = some ("locale" :: "props" :: names) := by
    rw [← hnames, List.mapM_map]
    apply mapM_eq_some
    intro p hp
    rfl
  have hscope : c.scope? ("locale" :: "props" :: names) = some ⟨names.zip c.arguments, c.fields⟩ := by
    rw [FunctionCall.scope?, if_pos ⟨hnodup, hlength⟩]
  -- The tokens are taken apart from the left: the name, the parameters, and then the body.
  have hexpression := (TextExpression.isExpression_code (readable_of_mem_chosen h c.variant)).meaning
  rw [FunctionCall.evaluate, lex_item h, (lex_functionHead h.ident h.parameters).2, List.append_assoc,
    FunctionCall.function?, behind?_append, List.cons_append, List.cons_append, List.append_assoc]
  simp only [takeWhile_parameters h.parameters, dropWhile_parameters h.parameters]
  rw [commaParts_intercalate hpartsNe hparts, hread, Option.bind_some, hscope, Option.bind_some, behind?_append,
    Option.bind_some, before?_append, Option.bind_some, body?_code h, hexpression _ shown hshown]

end AccessorFunction

end Phrasebook
