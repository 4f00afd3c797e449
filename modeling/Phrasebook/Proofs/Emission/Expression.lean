import Phrasebook.Proofs.Emission.Evaluation

/-!
# Evaluation of expressions

The code of an expression means the texts of its parts, one behind the other.

- `FormatArgument.isArgument_code`: the code of an argument means the text of its parameter or property.
- `formatted_pattern`: a pattern with its arguments is the text of the parts.
- `TextExpression.isExpression_code`: so is the code as a whole, with or without arguments.
-/

namespace Phrasebook

open Phrasebook.Text

/-! ## §1 Arguments -/

/-- Code that means a text, and can be read as an argument among others. -/
structure IsArgument (code : String) (text? : CodeScope → Option String) : Prop where
  /-- It is read apart from what stands behind it. -/
  stoppable : Stoppable code.toList
  /-- It is not cut at commas. -/
  closed : Closed (lex code.toList)
  meaning : ∀ s : CodeScope, s.argument? (lex code.toList) = text? s

/-- The path of a function of the support code. -/
def superTokens (helper : String) : List Token := [.word "super", .mark ':', .mark ':', .word helper]

theorem closed_superTokens (helper : String) : Closed (superTokens helper) :=
  closed_of_isSimple (by simp [superTokens, isSimple])

theorem lex_super {helper : String} (h : isWord helper.toList = true) :
    Stoppable ("super::" ++ helper).toList ∧ lex ("super::" ++ helper).toList = superTokens helper := by
  have hpath : Complete ("super::".toList) := fun rest => rfl
  rw [String.toList_append]
  refine ⟨hpath.append_stoppable (stoppable_of_isWord h), ?_⟩
  rw [hpath, lex_of_isWord h, String.ofList_toList]
  rfl

theorem isArgument_ident {ident : String} (h : isWord ident.toList = true) :
    IsArgument ident fun s => Entries.find? ident s.parameters := by
  have hlex : lex ident.toList = [.word ident] := by
    rw [lex_of_isWord h, String.ofList_toList]
  refine ⟨stoppable_of_isWord h, ?_, fun s => ?_⟩
  · rw [hlex]
    exact closed_of_isSimple (by simp [isSimple])
  · rw [hlex]
    rfl

/-- A call of a function of the support code with a name. -/
theorem lex_helperCall {helper ident : String} (hhelper : isWord helper.toList = true)
    (h : isWord ident.toList = true) :
    Complete (callText ("super::" ++ helper) [ident]).toList ∧
      lex (callText ("super::" ++ helper) [ident]).toList
        = superTokens helper ++ .mark '(' :: ([.word ident] ++ [.mark ')']) := by
  obtain ⟨hsuper, hsuperLex⟩ := lex_super hhelper
  have hargs : ∀ a ∈ [ident], Stoppable a.toList := by
    intro a ha
    obtain rfl := List.mem_singleton.mp ha
    exact stoppable_of_isWord h
  obtain ⟨hcall, hlex⟩ := lex_callText hsuper hargs
  rw [hsuperLex, List.map_singleton, List.intercalate_singleton, lex_of_isWord h, String.ofList_toList] at hlex
  exact ⟨hcall, hlex⟩

/-- A parameter is shown by a function. -/
theorem isArgument_parameterHelper {helper ident : String} (hhelper : helper ∈ parameterHelpers)
    (h : isWord ident.toList = true) :
    IsArgument (callText ("super::" ++ helper) [ident]) fun s => Entries.find? ident s.parameters := by
  have hword : isWord helper.toList = true := by
    revert helper
    decide
  obtain ⟨hcall, hlex⟩ := lex_helperCall hword h
  refine ⟨hcall.stoppable, ?_, fun s => ?_⟩
  · have hident : Closed [.word ident] := closed_of_isSimple (by simp [isSimple])
    rw [hlex]
    exact (closed_superTokens helper).append hident.inside.brackets
  · have hcontains : parameterHelpers.contains helper = true := by simpa using hhelper
    rw [hlex]
    simp only [superTokens, List.cons_append, List.nil_append, CodeScope.argument?, hcontains, ↓reduceIte]

/-- A property is shown by a function, to which its placeholder is given. -/
theorem isArgument_propertyHelper {helper field placeholder : String} (hhelper : helper ∈ propertyHelpers)
    (hfield : isWord field.toList = true) (hplaceholder : placeholder.toList.all isPlain = true) :
    IsArgument (callText ("super::" ++ helper) ["&props." ++ field, quoted placeholder]) fun s =>
      (Entries.find? field s.fields).map (·.getD placeholder) := by
  -- The helpers are few, and none of them shows parameters and properties alike.
  have hword : isWord helper.toList = true := by
    revert helper
    decide
  have hother : parameterHelpers.contains helper = false := by
    revert helper
    decide
  obtain ⟨hsuper, hsuperLex⟩ := lex_super hword
  have hprops : Complete ("&props.".toList) := fun rest => rfl
  have haccess : Stoppable ("&props." ++ field).toList := by
    rw [String.toList_append]
    exact hprops.append_stoppable (stoppable_of_isWord hfield)
  have haccessLex : lex ("&props." ++ field).toList = [.mark '&', .word "props", .mark '.', .word field] := by
    rw [String.toList_append, hprops, lex_of_isWord hfield, String.ofList_toList]
    rfl
  have hquotedLex : lex (quoted placeholder).toList = [.text placeholder] := by
    have halone := lex_quoted hplaceholder []
    rwa [List.append_nil] at halone
  have hargs : ∀ a ∈ ["&props." ++ field, quoted placeholder], Stoppable a.toList :=
    List.forall_mem_cons.mpr ⟨haccess, List.forall_mem_singleton.mpr (complete_quoted hplaceholder).stoppable⟩
  obtain ⟨hcall, hlex⟩ := lex_callText hsuper hargs
  rw [hsuperLex, List.map_cons, List.map_singleton, haccessLex, hquotedLex] at hlex
  refine ⟨hcall.stoppable, ?_, fun s => ?_⟩
  · have haccessClosed : Closed [.mark '&', .word "props", .mark '.', .word field] :=
      closed_of_isSimple (by simp [isSimple])
    have hquotedClosed : Closed [.text placeholder] := closed_of_isSimple (by simp [isSimple])
    rw [hlex]
    exact (closed_superTokens helper).append
      (inside_intercalate (List.forall_mem_cons.mpr ⟨haccessClosed, List.forall_mem_singleton.mpr hquotedClosed⟩)).brackets
  · have hcontains : propertyHelpers.contains helper = true := by simpa using hhelper
    rw [hlex]
    simp only [superTokens, List.intercalate_cons_cons, List.intercalate_singleton, List.cons_append,
      List.nil_append, CodeScope.argument?, hother, hcontains, Bool.false_eq_true, ↓reduceIte]

namespace FormatArgument

/-- The names of an argument can be read in its code. -/
def Readable : FormatArgument → Prop
  | parameter ident _ => isWord ident.toList = true
  | property field _ placeholder => isWord field.toList = true ∧ placeholder.toList.all isPlain = true

/-- The text of an argument. -/
def text? (a : FormatArgument) (s : CodeScope) : Option String :=
  match a with
  | parameter ident _ => Entries.find? ident s.parameters
  | property field _ placeholder => (Entries.find? field s.fields).map (·.getD placeholder)

theorem shown_cases (ident : String) (t : ParamType) :
    shown ident t = ident ∨ ∃ helper ∈ parameterHelpers, shown ident t = callText ("super::" ++ helper) [ident] := by
  unfold shown
  split
  · exact .inl rfl
  · exact .inr ⟨"show_value", by decide, rfl⟩
  · exact .inr ⟨"show_opt", by decide, rfl⟩
  · exact .inr ⟨"show_opt_value", by decide, rfl⟩

theorem propertyHelper_cases (t : ParamType) : ∃ helper ∈ propertyHelpers, propertyHelper t = "super::" ++ helper := by
  unfold propertyHelper
  split
  · exact ⟨"show_property_value", by decide, rfl⟩
  · exact ⟨"show_property", by decide, rfl⟩

/-- The code of an argument means the text of the argument. -/
theorem isArgument_code {a : FormatArgument} (h : a.Readable) : IsArgument a.code a.text? := by
  cases a with
  | parameter ident t =>
    have hident : isWord ident.toList = true := h
    rw [code]
    -- A parameter is shown by itself or by a function; a property always by a function.
    rcases shown_cases ident t with hself | ⟨helper, hhelper, hcall⟩
    · rw [hself]
      exact isArgument_ident hident
    · rw [hcall]
      exact isArgument_parameterHelper hhelper hident
  | property field t placeholder =>
    obtain ⟨helper, hhelper, hcall⟩ := propertyHelper_cases t
    rw [code, hcall]
    exact isArgument_propertyHelper hhelper h.1 h.2

end FormatArgument

/-! ## §2 Formats -/

namespace TextExpression

/-- The text of a part, arguments being shown as given. -/
def partText (shown : FormatArgument → String) : TextPart → String
  | .fixed text => text
  | .argument a => shown a

/-- The text of an expression, arguments being shown as given. -/
def textOf (shown : FormatArgument → String) (e : TextExpression) : String := String.join (e.map (partText shown))

/-- In a pattern a fixed text stands for itself. -/
theorem formatted_patternChars (s cs : List Char) (args : List (List Char)) :
    formatted (patternChars s ++ cs) args = (formatted cs args).map (s ++ ·) := by
  induction s with
  | nil =>
    show formatted cs args = _
    cases formatted cs args <;> rfl
  | cons c s ih =>
    have hrest : patternChars (c :: s) ++ cs
        = (if c = '{' || c = '}' then [c, c] else [c]) ++ (patternChars s ++ cs) := by
      rw [patternChars, List.flatMap_cons, List.append_assoc]
      rfl
    -- A brace is doubled in the pattern and read as one; any other character is read as it is.
    have hstep : formatted (patternChars (c :: s) ++ cs) args
        = (formatted (patternChars s ++ cs) args).map (c :: ·) := by
      rw [hrest]
      by_cases hopen : c = '{'
      · subst hopen
        rfl
      · by_cases hclose : c = '}'
        · subst hclose
          rfl
        · simp [formatted, hopen, hclose]
    rw [hstep, ih, Option.map_map]
    rfl

/-- A pattern with its arguments is the text of the parts. -/
theorem formatted_pattern (shown : FormatArgument → String) (e : TextExpression) :
    formatted (e.flatMap partPattern) (e.arguments.map fun a => (shown a).toList)
      = some (textOf shown e).toList := by
  unfold textOf
  rw [String.toList_join]
  -- By induction on the parts: a fixed one is copied, an argument takes the next text.
  induction e with
  | nil => rfl
  | cons p e ih =>
    cases p with
    | fixed text =>
      have harguments : arguments (.fixed text :: e) = arguments e := rfl
      rw [harguments, List.flatMap_cons, List.map_cons, List.flatMap_cons, partPattern, formatted_patternChars, ih]
      rfl
    | argument a =>
      have harguments : arguments (.argument a :: e) = a :: arguments e := rfl
      rw [harguments, List.flatMap_cons, List.map_cons, List.map_cons, List.flatMap_cons]
      show (formatted (e.flatMap partPattern) _).map ((shown a).toList ++ ·) = _
      rw [ih]
      rfl

/-- Without arguments, the fixed texts are the text. -/
theorem fixedText_eq (shown : FormatArgument → String) {e : TextExpression} (h : e.arguments = []) :
    e.fixedText = textOf shown e := by
  unfold fixedText textOf
  congr 1
  apply List.map_congr_left
  intro p hp
  cases p with
  | fixed text => rfl
  | argument a =>
    have hmem : a ∈ e.arguments := List.mem_filterMap.mpr ⟨.argument a, hp, rfl⟩
    rw [h] at hmem
    cases hmem

/-! ## §3 Expressions -/

theorem lex_string (text : String) :
    Complete (callText "String::from" [rawLiteral text]).toList ∧
      lex (callText "String::from" [rawLiteral text]).toList
        = [.word "String", .mark ':', .mark ':', .word "from", .mark '(', .text text, .mark ')'] := by
  have hpath : Complete ("String::".toList) := fun rest => rfl
  have hfrom : isWord "from".toList = true := rfl
  have hfunction : Stoppable ("String::" ++ "from").toList := by
    rw [String.toList_append]
    exact hpath.append_stoppable (stoppable_of_isWord hfrom)
  have hargs : ∀ a ∈ [rawLiteral text], Stoppable a.toList :=
    List.forall_mem_singleton.mpr (complete_rawLiteral text).stoppable
  obtain ⟨hcall, hlex⟩ := lex_callText hfunction hargs
  refine ⟨hcall, hlex.trans ?_⟩
  rw [List.map_singleton, List.intercalate_singleton, lex_rawLiteral]
  rfl

theorem lex_format (pattern : String) {codes : List String} (h : ∀ code ∈ codes, Stoppable code.toList) :
    Complete (callText "format!" (rawLiteral pattern :: codes)).toList ∧
      lex (callText "format!" (rawLiteral pattern :: codes)).toList
        = [.word "format", .mark '!'] ++ .mark '(' :: ([Token.mark ','].intercalate
          ([.text pattern] :: codes.map fun code => lex code.toList) ++ [.mark ')']) := by
  have hfunction : Complete ("format!".toList) := fun rest => rfl
  have hargs : ∀ a ∈ rawLiteral pattern :: codes, Stoppable a.toList :=
    List.forall_mem_cons.mpr ⟨(complete_rawLiteral pattern).stoppable, h⟩
  obtain ⟨hcall, hlex⟩ := lex_callText hfunction.stoppable hargs
  refine ⟨hcall, hlex.trans ?_⟩
  rw [List.map_cons, lex_rawLiteral]
  rfl

/-- Code that means the text of an expression, and can be read as the result of an arm among others. -/
structure IsExpression (code : String) (e : TextExpression) : Prop where
  /-- It is read apart from what stands behind it. -/
  complete : Complete code.toList
  /-- It is not cut at commas. -/
  closed : Closed (lex code.toList)
  /-- It is no match. -/
  behind : ∀ rest, behind? "match locale \x7b" (lex code.toList ++ rest) = none
  meaning : ∀ (s : CodeScope) (shown : FormatArgument → String), (∀ a ∈ e.arguments, a.text? s = some (shown a)) →
    s.expression? (lex code.toList) = some (textOf shown e)

/-- Without arguments the code is a literal, whose text is not escaped as a pattern is. -/
theorem isExpression_string {e : TextExpression} (hnone : e.arguments = []) :
    IsExpression (callText "String::from" [rawLiteral e.fixedText]) e := by
  obtain ⟨hcomplete, hlex⟩ := lex_string e.fixedText
  refine ⟨hcomplete, ?_, fun rest => ?_, fun s shown _ => ?_⟩
  · have hpath : Closed [.word "String", .mark ':', .mark ':', .word "from"] :=
      closed_of_isSimple (by simp [isSimple])
    have htext : Closed [.text e.fixedText] := closed_of_isSimple (by simp [isSimple])
    rw [hlex]
    exact hpath.append htext.inside.brackets
  · rw [hlex]
    rfl
  · rw [hlex, CodeScope.expression?, fixedText_eq shown hnone]

/-- Otherwise it is a format, whose parts between commas are the pattern and the arguments. -/
theorem isExpression_format {e : TextExpression} (h : ∀ a ∈ e.arguments, a.Readable) :
    IsExpression (callText "format!" (rawLiteral e.pattern :: e.arguments.map FormatArgument.code)) e := by
  have hcodes : ∀ code ∈ e.arguments.map FormatArgument.code, Stoppable code.toList := by
    intro code hcode
    obtain ⟨a, ha, rfl⟩ := List.mem_map.mp hcode
    exact (FormatArgument.isArgument_code (h a ha)).stoppable
  obtain ⟨hcomplete, hlex⟩ := lex_format e.pattern hcodes
  rw [List.map_map] at hlex
  -- No argument has a comma or a bracket of its own level, so the commas between them are the only ones.
  have hparts : ∀ p ∈ [Token.text e.pattern] :: e.arguments.map ((fun code => lex code.toList) ∘ FormatArgument.code),
      Closed p := by
    refine List.forall_mem_cons.mpr ⟨closed_of_isSimple (by simp [isSimple]), fun p hp => ?_⟩
    obtain ⟨a, ha, rfl⟩ := List.mem_map.mp hp
    exact (FormatArgument.isArgument_code (h a ha)).closed
  refine ⟨hcomplete, ?_, fun rest => ?_, fun s shown hshown => ?_⟩
  · have hname : Closed [.word "format", .mark '!'] := closed_of_isSimple (by simp [isSimple])
    rw [hlex]
    exact hname.append (inside_intercalate hparts).brackets
  · rw [hlex]
    rfl
  · have hargs : (e.arguments.map ((fun code => lex code.toList) ∘ FormatArgument.code)).mapM s.argument?
        = some (e.arguments.map shown) := by
      rw [List.mapM_map]
      apply mapM_eq_some
      intro a ha
      exact ((FormatArgument.isArgument_code (h a ha)).meaning s).trans (hshown a ha)
    have hformatted := formatted_pattern shown e
    rw [hlex]
    show (before? ')' _).bind (fun ts => s.format? (commaParts 0 ts)) = _
    rw [before?_append, Option.bind_some, commaParts_intercalate (List.cons_ne_nil _ _) hparts, CodeScope.format?,
      hargs, Option.bind_some, List.map_map, pattern, String.toList_ofList]
    show (formatted (e.flatMap partPattern) (e.arguments.map fun a => (shown a).toList)).map String.ofList = _
    rw [hformatted, Option.map_some, String.ofList_toList]

/-- The code of an expression means the texts of its parts. -/
theorem isExpression_code {e : TextExpression} (h : ∀ a ∈ e.arguments, a.Readable) : IsExpression e.code e := by
  unfold code
  by_cases hnone : e.arguments = []
  · rw [if_pos (List.isEmpty_iff.mpr hnone)]
    exact isExpression_string hnone
  · rw [if_neg (by simpa using hnone)]
    exact isExpression_format h

end TextExpression

end Phrasebook
