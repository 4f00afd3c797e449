import Phrasebook.Proofs.Parameter.List

/-!
# Nesting of brackets

The reader counts open brackets without their kind, looks at the last character of a text with arguments, and looks for
stray characters only where no bracket is opened. The text in front of the first opening bracket of a type, and the
name in front of the colon of a parameter, are not looked at. Where these have no bracket and no comma, all brackets
are nested and no name has any of them.

## Layers

- `Nested`: texts that close every bracket with the one that belongs to it.
- `ParamType.names`, `ParamType.base?`: the names of a type, and the one in front of its arguments.
- `Denotes.uncut_iff`: a text is uncut when the name in front of its arguments is plain.
- `Denotes.nested_iff`, `Denotes.names_plain_iff`: what decides whether the brackets are nested and the names plain.
- `parse_wellBracketed`: the same of types and lists that are read.
-/

namespace Phrasebook

open Phrasebook.Text

/-! ## §1 Nested texts -/

/-- Texts in which every bracket is closed by the one that belongs to it, and before those that were open already. -/
inductive Nested : List Char → Prop where
  | nil : Nested []
  | char {c : Char} {s : List Char} (hopening : isOpening c = false) (hclosing : isClosing c = false) (h : Nested s) :
      Nested (c :: s)
  | brackets {opening closing : Char} {inner rest : List Char} (hbrackets : Brackets opening closing)
      (hinner : Nested inner) (hrest : Nested rest) : Nested (opening :: (inner ++ closing :: rest))

theorem Nested.append {s t : List Char} (hs : Nested s) (ht : Nested t) : Nested (s ++ t) := by
  induction hs with
  | nil => exact ht
  | char hopening hclosing _ ih => exact .char hopening hclosing ih
  | brackets hbrackets hinner _ _ ih =>
    rw [List.cons_append, List.append_assoc, List.cons_append]
    exact .brackets hbrackets hinner ih

theorem nested_of_noBracket {s : List Char} (h : ∀ c ∈ s, isOpening c = false ∧ isClosing c = false) : Nested s := by
  induction s with
  | nil => exact .nil
  | cons c s ih =>
    obtain ⟨hc, hs⟩ := List.forall_mem_cons.mp h
    exact .char hc.1 hc.2 (ih hs)

/-- Commas between the brackets are no brackets. -/
theorem nested_intercalate {parts : List (List Char)} (h : ∀ p ∈ parts, Nested p) : Nested ([','].intercalate parts) := by
  induction parts with
  | nil => exact .nil
  | cons p parts ih =>
    obtain ⟨hp, hparts⟩ := List.forall_mem_cons.mp h
    cases parts with
    | nil =>
      rw [List.intercalate_singleton]
      exact hp
    | cons q parts =>
      rw [List.intercalate_cons_cons, List.append_assoc]
      exact hp.append (.char rfl rfl (ih hparts))

/-- A nested text does not begin with a closing bracket. -/
theorem Nested.of_cons {c : Char} {s : List Char} (h : Nested (c :: s)) (hc : isOpening c = false) :
    isClosing c = false ∧ Nested s := by
  cases h with
  | char _ hclosing hs => exact ⟨hclosing, hs⟩
  | brackets hbrackets _ _ =>
    rw [hbrackets.isOpening] at hc
    cases hc

/-- In front of the first opening bracket there is nothing to close. -/
theorem Nested.of_append {before s : List Char} (h : Nested (before ++ s))
    (hbefore : ∀ c ∈ before, isOpening c = false) : (∀ c ∈ before, isClosing c = false) ∧ Nested s := by
  induction before with
  | nil => exact ⟨List.forall_mem_nil _, h⟩
  | cons c before ih =>
    obtain ⟨hc, hrest⟩ := List.forall_mem_cons.mp hbefore
    obtain ⟨hclosing, htail⟩ := h.of_cons hc
    obtain ⟨hall, hs⟩ := ih htail hrest
    exact ⟨List.forall_mem_cons.mpr ⟨hclosing, hall⟩, hs⟩

/-- A text that stays above depth zero without opening a bracket closes none, and has no comma. -/
theorem plain_of_depthBehind {s : List Char} {d : Nat} (hopening : ∀ c ∈ s, isOpening c = false)
    (h : depthBehind 0 s = some d) : ∀ c ∈ s, isPlainChar c = true := by
  induction s with
  | nil => exact List.forall_mem_nil _
  | cons c s ih =>
    obtain ⟨hc, hs⟩ := List.forall_mem_cons.mp hopening
    rw [depthBehind_cons, Option.bind_eq_some_iff] at h
    obtain ⟨m, hm, hbehind⟩ := h
    -- Without an opening bracket the depth stays at zero, where neither comma nor closing bracket may stand.
    have hplain : isPlainChar c = true ∧ m = 0 := by
      unfold depthAfter at hm
      unfold isPlainChar
      grind
    obtain ⟨hplain, rfl⟩ := hplain
    exact List.forall_mem_cons.mpr ⟨hplain, ih hs hbehind⟩

/-! ## §2 Names of a type -/

/-- A name without brackets and commas. -/
def IsPlain (name : String) : Prop := ∀ c ∈ name.toList, isPlainChar c = true

instance (name : String) : Decidable (IsPlain name) :=
  decidable_of_iff (name.toList.all isPlainChar = true) List.all_eq_true

namespace ParamType

mutual

/-- The names of a type and of its arguments. -/
def names : ParamType → List String
  | .builtin _ _ => []
  | .named s as _ => s :: namesOfAll as
termination_by structural t => t

def namesOfAll : List ParamType → List String
  | [] => []
  | a :: as => names a ++ namesOfAll as
termination_by structural as => as

end

theorem namesOfAll_eq_flatMap (as : List ParamType) : namesOfAll as = as.flatMap names := by
  induction as with
  | nil => rfl
  | cons a as ih => rw [namesOfAll, ih, List.flatMap_cons]

@[simp] theorem names_named (s : String) (as : List ParamType) (nullable : Bool) :
    names (.named s as nullable) = s :: as.flatMap names := by
  rw [names, namesOfAll_eq_flatMap]

@[simp] theorem names_orNull (t : ParamType) : names t.orNull = names t := by
  cases t <;> rfl

/-- The name in front of the arguments of a type, if there are any. -/
def base? : ParamType → Option String
  | .builtin _ _ => none
  | .named _ [] _ => none
  | .named s (_ :: _) _ => some s

@[simp] theorem base?_orNull (t : ParamType) : base? t.orNull = base? t := by
  cases t with
  | builtin => rfl
  | named s as nullable => cases as <;> rfl

theorem base?_generic (s : String) {as : List ParamType} (h : as ≠ []) (nullable : Bool) :
    base? (.named s as nullable) = some s := by
  obtain ⟨a, as, rfl⟩ := List.exists_cons_of_ne_nil h
  rfl

end ParamType

open ParamType

/-! ## §3 The name in front of the arguments -/

/-- What holds of blanks holds throughout a text if it does so between the blanks at its ends. -/
theorem forall_mem_trim_iff {q : Char → Prop} (hblank : ∀ c, isBlank c = true → q c) {s : List Char} :
    (∀ c ∈ trim s, q c) ↔ ∀ c ∈ s, q c := by
  refine ⟨fun h c hc => ?_, fun h c hc => h c (mem_of_mem_trim hc)⟩
  obtain ⟨before, behind, hbefore, hbehind, hs⟩ := exists_blanks s
  rw [hs, List.mem_append, List.mem_append] at hc
  rcases hc with (hc | hc) | hc
  · exact hblank c (hbefore c hc)
  · exact h c hc
  · exact hblank c (hbehind c hc)

theorem isPlain_trim_iff {s : List Char} : IsPlain (String.ofList (trim s)) ↔ ∀ c ∈ s, isPlainChar c = true := by
  rw [IsPlain, String.toList_ofList]
  exact forall_mem_trim_iff fun c hc => isPlainChar_of_isBlank hc

/-- A name without closing brackets. -/
def NoClosing (name : String) : Prop := ∀ c ∈ name.toList, isClosing c = false

theorem noClosing_trim_iff {s : List Char} : NoClosing (String.ofList (trim s)) ↔ ∀ c ∈ s, isClosing c = false := by
  rw [NoClosing, String.toList_ofList]
  exact forall_mem_trim_iff fun c hc => (noBracket_of_isPlainChar (isPlainChar_of_isBlank hc)).2

theorem IsPlain.noClosing {name : String} (h : IsPlain name) : NoClosing name :=
  fun c hc => (noBracket_of_isPlainChar (h c hc)).2

theorem uncut_congr_trim {s s' : List Char} (h : trim s = trim s') : Uncut s ↔ Uncut s' := by
  rw [uncut_iff, uncut_iff, ← depthBehind_trim s, h, depthBehind_trim]

/-- The text of a type is uncut when the name in front of its arguments is plain. -/
theorem Denotes.uncut_iff {s : List Char} {t : ParamType} (h : Denotes s t) :
    Uncut s ↔ ∀ base ∈ t.base?, IsPlain base := by
  -- By induction on the rules: behind the name, the brackets of the arguments protect what is between them.
  induction h with
  | word hword =>
    exact iff_of_true (uncut_of_plain (isTypeName_of_spellsKind hword).plain) fun _ hbase => by cases hbase
  | star => exact iff_of_true (uncut_of_plain (List.forall_mem_singleton.mpr rfl)) fun _ hbase => by cases hbase
  | name hname _ => exact iff_of_true (uncut_of_plain hname.plain) fun _ hbase => by cases hbase
  | @generic before opening closing arguments _ hbefore hbrackets hne huncut _ _ =>
    rw [base?_generic _ (List.map_eq_nil_iff.not.mpr hne)]
    simp only [Option.mem_some_iff, forall_eq', isPlain_trim_iff]
    refine ⟨fun h => ?_, fun hplain => ?_⟩
    · obtain ⟨d, hd, -⟩ := depthBehind_append_eq_some_iff.mp (Phrasebook.uncut_iff.mp h)
      exact plain_of_depthBehind hbefore hd
    · exact (uncut_of_plain hplain).append (uncut_brackets hbrackets (List.forall_mem_map.mpr huncut))
  | @optional s t _ ih =>
    have hmark : Uncut (s ++ ['?']) ↔ Uncut s := by
      rw [Phrasebook.uncut_iff, Phrasebook.uncut_iff, depthBehind_append]
      cases depthBehind 0 s with
      | none => rfl
      | some d => rw [Option.bind_some, depthBehind_plain (List.forall_mem_singleton.mpr rfl)]
    rw [hmark, base?_orNull, ih]
  | blanks hbefore hbehind _ ih => rw [← ih, uncut_congr_trim (trim_blanks hbefore hbehind _)]

/-! ## §4 Nesting and names -/

theorem Denotes.nested {s : List Char} {t : ParamType} (h : Denotes s t) (hbase : ∀ base ∈ t.base?, NoClosing base) :
    Nested s := by
  have hplain : ∀ {s : List Char}, (∀ c ∈ s, isPlainChar c = true) → Nested s :=
    fun h => nested_of_noBracket fun c hc => noBracket_of_isPlainChar (h c hc)
  induction h with
  | word hword => exact hplain (isTypeName_of_spellsKind hword).plain
  | star => exact hplain (List.forall_mem_singleton.mpr rfl)
  | name hname _ => exact hplain hname.plain
  | @generic before opening closing arguments _ hbefore hbrackets hne huncut harguments ih =>
    rw [base?_generic _ (List.map_eq_nil_iff.not.mpr hne)] at hbase
    have hclosing := noClosing_trim_iff.mp (hbase _ rfl)
    have hinner : Nested ([','].intercalate (arguments.map (·.1))) := by
      -- The texts of the arguments are uncut, so the names in front of their own arguments are plain.
      refine nested_intercalate (List.forall_mem_map.mpr fun a ha => ih a ha fun base hmem => ?_)
      exact ((harguments a ha).uncut_iff.mp (huncut a ha) base hmem).noClosing
    exact (nested_of_noBracket fun c hc => ⟨hbefore c hc, hclosing c hc⟩).append (.brackets hbrackets hinner .nil)
  | optional _ ih =>
    rw [base?_orNull] at hbase
    exact (ih hbase).append (hplain (List.forall_mem_singleton.mpr rfl))
  | blanks hbefore hbehind _ ih =>
    exact ((hplain (plain_of_blanks hbefore)).append (ih hbase)).append (hplain (plain_of_blanks hbehind))

/-- A closing bracket in front of the arguments closes nothing, whatever follows the text. -/
theorem Denotes.noClosing_of_nested {s : List Char} {t : ParamType} (h : Denotes s t) (behind : List Char)
    (hnested : Nested (s ++ behind)) : ∀ base ∈ t.base?, NoClosing base := by
  -- What follows the text is left open, for a question mark may stand there and nested texts cannot be cut off.
  induction h generalizing behind with
  | word _ => exact fun _ hbase => by cases hbase
  | star => exact fun _ hbase => by cases hbase
  | name _ _ => exact fun _ hbase => by cases hbase
  | generic _ hbefore _ hne _ _ _ =>
    rw [base?_generic _ (List.map_eq_nil_iff.not.mpr hne)]
    rw [List.append_assoc] at hnested
    simp only [Option.mem_some_iff, forall_eq', noClosing_trim_iff]
    exact (hnested.of_append hbefore).1
  | optional _ ih =>
    rw [base?_orNull]
    rw [List.append_assoc] at hnested
    exact ih _ hnested
  | blanks hbefore _ _ ih =>
    rw [List.append_assoc, List.append_assoc] at hnested
    exact ih _ (hnested.of_append fun c hc => (noBracket_of_isPlainChar (plain_of_blanks hbefore c hc)).1).2

/-- The brackets of a text are nested when there is none to close in front of the arguments. -/
theorem Denotes.nested_iff {s : List Char} {t : ParamType} (h : Denotes s t) :
    Nested s ↔ ∀ base ∈ t.base?, NoClosing base :=
  ⟨fun hnested => h.noClosing_of_nested [] (by rwa [List.append_nil]), h.nested⟩

theorem mem_names_of_base? {t : ParamType} {base : String} (h : base ∈ t.base?) : base ∈ t.names := by
  cases t with
  | builtin => cases h
  | named s as nullable =>
    cases as with
    | nil => cases h
    | cons a as =>
      obtain rfl := Option.mem_some_iff.mp h
      rw [names_named]
      exact List.mem_cons_self

/-- The name in front of the arguments decides whether all names are plain. -/
theorem Denotes.names_plain_iff {s : List Char} {t : ParamType} (h : Denotes s t) :
    (∀ name ∈ t.names, IsPlain name) ↔ ∀ base ∈ t.base?, IsPlain base := by
  refine ⟨fun hnames base hbase => hnames base (mem_names_of_base? hbase), fun hbase => ?_⟩
  induction h with
  | word _ => exact List.forall_mem_nil _
  | star => exact List.forall_mem_nil _
  | name hname _ =>
    rw [names_named]
    simpa [IsPlain] using hname.plain
  | @generic before opening closing arguments _ _ _ hne huncut harguments ih =>
    rw [base?_generic _ (List.map_eq_nil_iff.not.mpr hne)] at hbase
    rw [names_named, List.forall_mem_cons]
    -- Arguments are not cut within a comma, and then their own base is plain.
    refine ⟨hbase _ rfl, fun name hname => ?_⟩
    obtain ⟨t, ht, hmem⟩ := List.mem_flatMap.mp hname
    obtain ⟨a, ha, rfl⟩ := List.mem_map.mp ht
    exact ih a ha ((harguments a ha).uncut_iff.mp (huncut a ha)) name hmem
  | optional _ ih =>
    rw [base?_orNull] at hbase
    rw [names_orNull]
    exact ih hbase
  | blanks _ _ _ ih => exact ih hbase

/-- No name has an opening bracket, since the first one begins the arguments. -/
theorem Denotes.names_noOpening {s : List Char} {t : ParamType} (h : Denotes s t) :
    ∀ name ∈ t.names, ∀ c ∈ name.toList, isOpening c = false := by
  induction h with
  | word _ => exact List.forall_mem_nil _
  | star => exact List.forall_mem_nil _
  | name hname _ =>
    rw [names_named, List.flatMap_nil, List.forall_mem_singleton, String.toList_ofList]
    exact fun c hc => (noBracket_of_isPlainChar (hname.plain c hc)).1
  -- Whatever else it may hold, the name ends in front of the first opening bracket.
  | generic _ hbefore _ _ _ _ ih =>
    rw [names_named, List.forall_mem_cons, String.toList_ofList]
    refine ⟨fun c hc => hbefore c (mem_of_mem_trim hc), fun name hname => ?_⟩
    obtain ⟨t, ht, hmem⟩ := List.mem_flatMap.mp hname
    obtain ⟨a, ha, rfl⟩ := List.mem_map.mp ht
    exact ih a ha name hmem
  | optional _ ih =>
    rw [names_orNull]
    exact ih
  | blanks _ _ _ ih => exact ih

/-- The brackets of a text are nested, and no name of the type that it is read as has a bracket or a comma. -/
structure WellBracketed (s : List Char) (t : ParamType) : Prop where
  nested : Nested s
  plain : ∀ name ∈ t.names, IsPlain name

theorem Denotes.wellBracketed_iff {s : List Char} {t : ParamType} (h : Denotes s t) :
    WellBracketed s t ↔ ∀ base ∈ t.base?, IsPlain base := by
  refine ⟨fun hwell => h.names_plain_iff.mp hwell.plain, fun hbase => ⟨?_, h.names_plain_iff.mpr hbase⟩⟩
  exact h.nested fun base hmem => (hbase base hmem).noClosing

/-! ## §5 Types and lists that are read -/

/-- A name that has no opening bracket in front of the colon of an uncut part has no other bracket and no comma. -/
theorem DenotesParameter.isPlain_name_iff {part : List Char} {p : Parameter} (h : DenotesParameter part p)
    (huncut : Uncut part) : IsPlain p.name ↔ ∀ c ∈ p.name.toList, isOpening c = false := by
  obtain ⟨before, behind, -, rfl, -, hname, -⟩ := h
  rw [hname, isPlain_trim_iff, String.toList_ofList,
    forall_mem_trim_iff fun c hc => (noBracket_of_isPlainChar (isPlainChar_of_isBlank hc)).1]
  refine ⟨fun hplain c hc => (noBracket_of_isPlainChar (hplain c hc)).1, fun hopening => ?_⟩
  obtain ⟨d, hd, -⟩ := depthBehind_append_eq_some_iff.mp (uncut_iff.mp huncut)
  exact plain_of_depthBehind hopening hd

/-- The text behind the colon of an uncut part closes the brackets that the name in front of it leaves open. -/
theorem uncut_behind_iff {before behind : List Char} (huncut : Uncut (before ++ ':' :: behind)) :
    Uncut behind ↔ Uncut before := by
  obtain ⟨d, hbefore, hbehind⟩ := depthBehind_append_eq_some_iff.mp (uncut_iff.mp huncut)
  rw [depthBehind_cons_plain rfl] at hbehind
  refine ⟨fun h => ?_, fun h => ?_⟩
  · rw [h.depthBehind] at hbehind
    obtain rfl := Option.some.inj hbehind
    exact uncut_iff.mpr hbefore
  · rw [h.depthBehind] at hbefore
    obtain rfl := Option.some.inj hbefore
    exact uncut_iff.mpr hbehind

/-- The text behind the colon of a part of a list, from which the type of a parameter is read. -/
def IsTypeText (d : String) (p : Parameter) (text : List Char) : Prop :=
  ∃ parts part before, splitTopLevel d.toList = some parts ∧ part ∈ parts ∧ cut? ':' part = some (before, text) ∧
    p.name = String.ofList (trim before) ∧ ParamType.parseChars text = .ok p.type

/-- **Brackets**: the brackets of a text that is read as a type are nested, and no name of the type has a bracket or a
comma, exactly when the name in front of its arguments has none; no other name matters. So it is with the type of a
parameter in a list that is read, and the parameter has such a name, exactly when this has no opening bracket. -/
theorem parse_wellBracketed (s d : String) :
    (∀ t, ParamType.parse s = .ok t →
      (WellBracketed s.toList t ↔ ∀ base ∈ t.base?, IsPlain base) ∧
      (Nested s.toList ↔ ∀ base ∈ t.base?, NoClosing base) ∧
      ∀ name ∈ t.names, ∀ c ∈ name.toList, isOpening c = false) ∧
    ∀ ps, ParameterList.parse d = .ok ps → ∀ p ∈ ps, ∃ text, IsTypeText d p text ∧
      (IsPlain p.name ∧ WellBracketed text p.type ↔ ∀ c ∈ p.name.toList, isOpening c = false) ∧
      (WellBracketed text p.type ↔ Uncut p.name.toList) := by
  refine ⟨fun t h => ?_, fun ps h p hp => ?_⟩
  · have hdenotes := ParamType.parse_eq_ok_iff.mp h
    exact ⟨hdenotes.wellBracketed_iff, hdenotes.nested_iff, hdenotes.names_noOpening⟩
  · rcases ParameterList.parseChars_eq_ok_iff.mp h with ⟨-, rfl⟩ | ⟨-, -, texts, hne, huncut, hd, hall⟩
    · cases hp
    -- Each parameter was read off one part, which has no cut of its own outside brackets.
    · obtain ⟨part, hmem, hread⟩ := exists_of_forall₂_of_mem_right hall hp
      have hparts : splitTopLevel d.toList = some (texts.map trim) := hd ▸ splitTopLevel_intercalate hne huncut
      have hpart : Uncut (trim part) := (uncut_congr_trim (trim_trim part)).mpr (huncut part hmem)
      have hdenotes := denotesParameter_trim_iff.mpr hread
      have hplain := hdenotes.isPlain_name_iff hpart
      obtain ⟨before, text, hcolon, heq, -, hname, htype⟩ := hdenotes
      have hcut : cut? ':' (trim part) = some (before, text) := heq ▸ cut?_append hcolon text
      have hwell : WellBracketed text p.type ↔ Uncut p.name.toList := by
        rw [heq] at hpart
        rw [htype.wellBracketed_iff, ← htype.uncut_iff, uncut_behind_iff hpart, hname, String.toList_ofList,
          uncut_congr_trim (trim_trim before)]
      refine ⟨text, ⟨texts.map trim, trim part, before, hparts, List.mem_map_of_mem hmem, hcut, hname,
        ParamType.parseChars_eq_ok_iff.mpr htype⟩, ?_, hwell⟩
      rw [← hplain, and_iff_left_of_imp]
      exact fun h => hwell.mpr (uncut_of_plain h)

theorem parse_wellBracketed_scores :
    WellBracketed "Map[text, List<Int?>]?".toList
        (.named "Map" [.builtin .text false, .named "List" [.builtin .integer true] false] true) ∧
      IsPlain "scores" ∧
      ∃ text, WellBracketed text (.named "Map" [.builtin .text false, .builtin .integer false] false) := by
  have htype : ParamType.parse "Map[text, List<Int?>]?"
      = .ok (.named "Map" [.builtin .text false, .named "List" [.builtin .integer true] false] true) := by decide +kernel
  have hlist : ParameterList.parse "who:text,scores:Map<text,integer>"
      = .ok [⟨"who", .builtin .text false⟩,
        ⟨"scores", .named "Map" [.builtin .text false, .builtin .integer false] false⟩] := by decide +kernel
  have hmap : ∀ base ∈ (ParamType.named "Map" [.builtin .text false, .named "List" [.builtin .integer true] false]
      true).base?, IsPlain base := by
    rintro base hbase
    obtain rfl := Option.mem_some_iff.mp hbase
    decide
  obtain ⟨htypes, hlists⟩ := parse_wellBracketed "Map[text, List<Int?>]?" "who:text,scores:Map<text,integer>"
  obtain ⟨text, -, hwell, -⟩ := hlists _ hlist _ (List.mem_cons_of_mem _ List.mem_cons_self)
  have hopening : ∀ c ∈ "scores".toList, isOpening c = false := by
    simpa using List.any_eq_false.mp (show "scores".toList.any isOpening = false by decide)
  obtain ⟨hname, hscores⟩ := hwell.mpr hopening
  exact ⟨(htypes _ htype).1.mpr hmap, hname, text, hscores⟩

/-- A closing bracket is not looked for in front of the arguments of a type, and a colon may stand between brackets
that the name of the parameter opens. -/
theorem parse_not_wellBracketed :
    ParamType.parse "a>b<text>" = .ok (.named "a>b" [.builtin .text false] false) ∧
      ¬ Nested "a>b<text>".toList ∧ ¬ IsPlain "a>b" ∧
      ParameterList.parse "a<x:y>b<text>" = .ok [⟨"a<x", .named "y>b" [.builtin .text false] false⟩] ∧
      ¬ Nested "y>b<text>".toList ∧ ¬ IsPlain "y>b" ∧ ¬ IsPlain "a<x" := by
  have hstray : ∀ before behind : List Char, before.any isOpening = false → '>' ∈ before →
      ¬ Nested (before ++ behind) := by
    intro before behind hopening hmem h
    have hnone : ∀ c ∈ before, isOpening c = false := by simpa using List.any_eq_false.mp hopening
    exact absurd ((h.of_append hnone).1 _ hmem) (by decide)
  refine ⟨by decide +kernel, hstray "a>b".toList "<text>".toList (by decide) (by decide), by decide, by decide +kernel,
    hstray "y>b".toList "<text>".toList (by decide) (by decide), by decide, by decide⟩

end Phrasebook
