import Phrasebook.Proofs.Parameter.List

/-!
# Reading what is displayed

A type is displayed with one word for each kind, angle brackets and at most one question mark, and without the blanks
it may have been written with. What is displayed is read as the same type again, whatever names it has; so it is with
parameter lists.

## Layers

- `displayChars_generic`, `displayChars_orNull`: the text of a type, without its two mutual functions.
- `depthBehind_displayChars`: a displayed type opens and closes as many brackets as the text that it is read from.
- `Denotes.displayChars`, `DenotesParameter.partChars`: what is displayed denotes what was read.
- `parse_display`: so it is read again.
-/

namespace Phrasebook

open Phrasebook.Name Phrasebook.Text

namespace ParamType

/-! ## §1 The text of a type -/

/-- The arguments of a type with their texts: each but the first one has a blank in front. -/
def displayedArguments : List ParamType → List (List Char × ParamType)
  | [] => []
  | a :: as => (displayChars a, a) :: as.map fun b => (' ' :: displayChars b, b)

theorem map_snd_displayedArguments (as : List ParamType) : (displayedArguments as).map (·.2) = as := by
  cases as with
  | nil => rfl
  | cons a as => simp [displayedArguments, Function.comp_def]

theorem of_mem_displayedArguments {as : List ParamType} {x : List Char × ParamType} (h : x ∈ displayedArguments as) :
    x.2 ∈ as ∧ ∃ gap, Blanks gap ∧ x.1 = gap ++ displayChars x.2 := by
  cases as with
  | nil => cases h
  | cons a as =>
    rcases List.mem_cons.mp h with rfl | hmem
    · exact ⟨List.mem_cons_self, [], List.forall_mem_nil _, rfl⟩
    · obtain ⟨b, hb, rfl⟩ := List.mem_map.mp hmem
      exact ⟨List.mem_cons_of_mem a hb, [' '], List.forall_mem_singleton.mpr rfl, rfl⟩

theorem displayRest_eq (s : List Char) (as : List ParamType) :
    s ++ displayRest as = [','].intercalate (s :: as.map fun a => ' ' :: displayChars a) := by
  induction as generalizing s with
  | nil => simp [displayRest]
  | cons a as ih =>
    rw [displayRest, List.map_cons, List.intercalate_cons_cons, ← ih]
    simp

/-- Arguments are displayed between angle brackets, with commas between them. -/
theorem displayChars_generic (s : String) {as : List ParamType} (h : as ≠ []) :
    displayChars (.named s as false)
      = s.toList ++ '<' :: ([','].intercalate ((displayedArguments as).map (·.1)) ++ ['>']) := by
  obtain ⟨a, as, rfl⟩ := List.exists_cons_of_ne_nil h
  have hrest := displayRest_eq (displayChars a) as
  simp only [displayedArguments, List.map_cons, List.map_map, Function.comp_def, ← hrest, displayChars]
  simp

/-- A question mark is displayed once. -/
theorem displayChars_orNull (t : ParamType) :
    t.orNull = t ∨ displayChars t.orNull = displayChars t ++ ['?'] := by
  cases t with
  | builtin kind nullable => cases nullable <;> simp [orNull, displayChars]
  | named s as nullable =>
    cases nullable with
    | true => exact .inl rfl
    | false => cases as <;> simp [orNull, displayChars]

theorem spellsKind_display (kind : Builtin) : SpellsKind kind kind.display.toList := by
  cases kind with
  | integer => exact ⟨"integer", by decide, by decide⟩
  | float => exact ⟨"float", by decide, by decide⟩
  | boolean => exact ⟨"boolean", by decide, by decide⟩
  | text => exact ⟨"text", by decide, by decide⟩
  | any => exact ⟨"any", by decide, by decide⟩

theorem displayChars_builtin (kind : Builtin) : displayChars (.builtin kind false) = kind.display.toList := by
  simp [displayChars]

/-! ## §2 Brackets of a displayed type -/

/-- A displayed type opens and closes brackets as the text does that it is read from. -/
theorem depthBehind_displayChars {s : List Char} {t : ParamType} (h : Denotes s t) {depth d : Nat}
    (hdepth : depthBehind depth s = some d) : depthBehind depth (displayChars t) = some d := by
  induction h generalizing depth d with
  | @word kind s hword =>
    have hplain : ∀ {s}, SpellsKind kind s → ∀ depth, depthBehind depth s = some depth :=
      fun hword => depthBehind_plain (isTypeName_of_spellsKind hword).plain
    rw [displayChars_builtin, hplain (spellsKind_display kind), ← hdepth, hplain hword]
  | star =>
    rw [displayChars_builtin]
    exact hdepth
  | @name s _ _ => simpa [displayChars] using hdepth
  | @generic before opening closing arguments _ _ hbrackets hne huncut _ ih =>
    obtain ⟨m, hbefore, hgroup⟩ := depthBehind_append_eq_some_iff.mp hdepth
    -- The brackets protect the arguments, so only what stands in front of them counts.
    rw [(uncut_brackets hbrackets (List.forall_mem_map.mpr huncut)).depthBehind] at hgroup
    obtain rfl := Option.some.inj hgroup
    rw [displayChars_generic _ (List.map_eq_nil_iff.not.mpr hne), String.toList_ofList, depthBehind_append,
      depthBehind_trim, hbefore]
    apply (uncut_brackets .angle _).depthBehind
    rintro p hp
    obtain ⟨x, hx, rfl⟩ := List.mem_map.mp hp
    obtain ⟨hmem, gap, hgap, htext⟩ := of_mem_displayedArguments hx
    obtain ⟨a, ha, heq⟩ := List.mem_map.mp hmem
    have hdisplayed := ih a ha (uncut_iff.mp (huncut a ha))
    rw [htext, ← heq]
    exact (uncut_of_blanks hgap).append (uncut_iff.mpr hdisplayed)
  | @optional s t _ ih =>
    obtain ⟨m, hs, hmark⟩ := depthBehind_append_eq_some_iff.mp hdepth
    rw [depthBehind_plain (List.forall_mem_singleton.mpr rfl)] at hmark
    obtain rfl := Option.some.inj hmark
    rcases t.displayChars_orNull with heq | heq
    · rw [heq]
      exact ih hs
    · rw [heq, depthBehind_append, ih hs]
      exact depthBehind_plain (List.forall_mem_singleton.mpr rfl) m
  | @blanks before s behind t hbefore hbehind _ ih =>
    rw [← depthBehind_trim, trim_blanks hbefore hbehind, depthBehind_trim] at hdepth
    exact ih hdepth

theorem uncut_displayChars {s : List Char} {t : ParamType} (h : Denotes s t) (hs : Uncut s) :
    Uncut (displayChars t) :=
  uncut_iff.mpr (depthBehind_displayChars h (uncut_iff.mp hs))

end ParamType

open ParamType

/-! ## §3 What is displayed denotes what was read -/

/-- A type that can be read is denoted by its own text. -/
theorem Denotes.displayChars {s : List Char} {t : ParamType} (h : Denotes s t) : Denotes (displayChars t) t := by
  induction h with
  | @word kind _ _ =>
    rw [displayChars_builtin]
    exact .word (spellsKind_display kind)
  | star => exact .word (spellsKind_display .any)
  | @name s hname hword =>
    -- A name is displayed as it is written.
    have hself : ParamType.displayChars (.named (String.ofList s) [] false) = s := by simp [ParamType.displayChars]
    rw [hself]
    exact .name hname hword
  | @generic before opening closing arguments hbase hbefore _ hne huncut harguments ih =>
    have hne' : arguments.map (·.2) ≠ [] := List.map_eq_nil_iff.not.mpr hne
    rw [displayChars_generic _ hne', String.toList_ofList]
    have harguments' : ∀ x ∈ displayedArguments (arguments.map (·.2)), Uncut x.1 ∧ Denotes x.1 x.2 := by
      intro x hx
      obtain ⟨hmem, gap, hgap, htext⟩ := of_mem_displayedArguments hx
      obtain ⟨a, ha, heq⟩ := List.mem_map.mp hmem
      rw [htext, ← heq]
      have hdenotes := @Denotes.blanks _ _ [] _ hgap (List.forall_mem_nil _) (ih a ha)
      rw [List.append_nil] at hdenotes
      exact ⟨(uncut_of_blanks hgap).append (uncut_displayChars (harguments a ha) (huncut a ha)), hdenotes⟩
    -- The display has angle brackets and trimmed parts, whatever brackets were written.
    have hgeneric := @Denotes.generic (trim before) _ _ (displayedArguments (arguments.map (·.2)))
      (by rwa [trim_trim]) (fun c hc => hbefore c (mem_of_mem_trim hc)) .angle ?_
      (fun x hx => (harguments' x hx).1) (fun x hx => (harguments' x hx).2)
    · rwa [trim_trim, map_snd_displayedArguments] at hgeneric
    · intro hnil
      have hmap := map_snd_displayedArguments (arguments.map (·.2))
      rw [hnil] at hmap
      exact hne' hmap.symm
  | @optional s t _ ih =>
    -- A type that is nullable already has no second mark.
    rcases t.displayChars_orNull with heq | heq
    · rwa [heq]
    · rw [heq]
      exact ih.optional
  | blanks _ _ _ ih => exact ih

/-- And so is a parameter, whose text is uncut where it was read from an uncut text. -/
theorem DenotesParameter.partChars {part : List Char} {p : Parameter} (h : DenotesParameter part p) :
    DenotesParameter (ParameterList.partChars p) p ∧ (Uncut part → Uncut (ParameterList.partChars p)) := by
  obtain ⟨before, behind, hcolon, rfl, hbase, hname, htype⟩ := h
  have hchars : p.name.toList = trim before := by rw [hname, String.toList_ofList]
  rw [ParameterList.partChars, hchars]
  refine ⟨⟨trim before, _, fun hmem => hcolon (mem_of_mem_trim hmem), rfl, by rwa [trim_trim], by rw [trim_trim, hname],
    htype.displayChars⟩, fun huncut => ?_⟩
  obtain ⟨m, hbefore, hbehind⟩ := depthBehind_append_eq_some_iff.mp (uncut_iff.mp huncut)
  have hcolonDepth (depth : Nat) (s : List Char) : depthBehind depth (':' :: s) = depthBehind depth s :=
    depthBehind_cons_plain rfl depth s
  rw [hcolonDepth] at hbehind
  rw [uncut_iff, depthBehind_append, depthBehind_trim, hbefore, Option.bind_some, hcolonDepth]
  exact depthBehind_displayChars htype hbehind

/-- A list that can be read is read from its own text, unless it is empty. -/
theorem ParameterList.parseChars_listChars {s : List Char} {ps : ParameterList} (h : parseChars s = .ok ps)
    (hne : ps ≠ []) : parseChars (listChars ps) = .ok ps := by
  rcases parseChars_eq_ok_iff.mp h with ⟨-, hnil⟩ | ⟨-, hnodup, texts, -, huncut, -, hall⟩
  · exact absurd hnil hne
  · refine parseChars_eq_ok_iff.mpr (.inr ⟨?_, hnodup, ps.map partChars, List.map_eq_nil_iff.not.mpr hne, ?_, rfl, ?_⟩)
    · -- The colon of the first parameter is no blank.
      obtain ⟨p, ps, rfl⟩ := List.exists_cons_of_ne_nil hne
      intro hblank
      have hcolon : ':' ∈ listChars (p :: ps) := by
        cases ps <;> simp [listChars, partChars]
      exact absurd (hblank _ hcolon) (by decide)
    · intro part hpart
      obtain ⟨p, hp, rfl⟩ := List.mem_map.mp hpart
      obtain ⟨text, htext, hdenotes⟩ := exists_of_forall₂_of_mem_right hall hp
      exact hdenotes.partChars.2 (huncut text htext)
    · rw [List.forall₂_map_left_iff, List.forall₂_same]
      intro p hp
      obtain ⟨text, -, hdenotes⟩ := exists_of_forall₂_of_mem_right hall hp
      exact hdenotes.partChars.1

/-! ## §4 Reading again -/

theorem ParamType.parse_display_of_parse {s : String} {t : ParamType} (h : parse s = .ok t) :
    parse t.display = .ok t := by
  rw [parse_eq_ok_iff, display, String.toList_ofList]
  exact (parse_eq_ok_iff.mp h).displayChars

theorem ParameterList.parse_display_of_parse {d : String} {ps : ParameterList} (h : parse d = .ok ps) (hne : ps ≠ []) :
    parse (display ps) = .ok ps := by
  have hempty : ps.isEmpty = false := by simpa using hne
  rw [parse, display, hempty, if_neg Bool.false_ne_true, String.toList_ofList]
  exact parseChars_listChars h hne

/-- The empty list is displayed as a text that is no list of parameters. -/
theorem ParameterList.display_ne_display_nil {d : String} {ps : ParameterList} (h : parse d = .ok ps) (hne : ps ≠ []) :
    display ps ≠ display [] := by
  intro heq
  have hread := parse_display_of_parse h hne
  rw [heq] at hread
  have hnone : parse (display []) = .error (.missingSeparator "(no parameters)") := by decide +kernel
  rw [hnone] at hread
  cases hread

/-- **Display**: what is displayed of a type, or of a list that is not empty, is read as the same again. So two texts
that can be read display alike only if they stand for the same type or the same list. -/
theorem parse_display :
    (∀ s t, ParamType.parse s = .ok t → ParamType.parse t.display = .ok t) ∧
    (∀ d ps, ParameterList.parse d = .ok ps → ps ≠ [] → ParameterList.parse ps.display = .ok ps) ∧
    (∀ s s' t t', ParamType.parse s = .ok t → ParamType.parse s' = .ok t' → t.display = t'.display → t = t') ∧
    ∀ d d' ps ps', ParameterList.parse d = .ok ps → ParameterList.parse d' = .ok ps' →
      ParameterList.display ps = ParameterList.display ps' → ps = ps' := by
  refine ⟨fun s t h => ParamType.parse_display_of_parse h, fun d ps h hne => ParameterList.parse_display_of_parse h hne,
    fun s s' t t' h h' heq => ?_, fun d d' ps ps' h h' heq => ?_⟩
  · have hread := ParamType.parse_display_of_parse h
    rw [heq, ParamType.parse_display_of_parse h'] at hread
    exact (Except.ok.inj hread).symm
  -- An empty list is displayed as nothing, which no other list is.
  · by_cases hps : ps = []
    · by_contra hne
      rw [hps] at hne heq
      exact ParameterList.display_ne_display_nil h' (Ne.symm hne) heq.symm
    · by_cases hps' : ps' = []
      · rw [hps'] at heq
        exact absurd heq (ParameterList.display_ne_display_nil h hps)
      · have hread := ParameterList.parse_display_of_parse h hps
        rw [heq, ParameterList.parse_display_of_parse h' hps'] at hread
        exact (Except.ok.inj hread).symm

/-- A name in front of arguments may end with a question mark or be a star, and brackets that a name opens may be
closed in the name of the type. -/
theorem parse_display_odd :
    ParamType.parse "Map<text?, a:b?<*<x>>>?"
        = .ok (.named "Map" [.builtin .text true, .named "a:b?" [.named "*" [.named "x" [] false] false] false] true) ∧
      ParameterList.parse "a<x:y>b<text, integer?>,c:any"
        = .ok [⟨"a<x", .named "y>b" [.builtin .text false, .builtin .integer true] false⟩, ⟨"c", .builtin .any false⟩] := by
  have htype : ParamType.parse "Map [ STR ? ?, a:b? <* [x]>]?"
      = .ok (.named "Map" [.builtin .text true, .named "a:b?" [.named "*" [.named "x" [] false] false] false] true) := by
    decide +kernel
  have hlist : ParameterList.parse " a<x : y>b[text, Int?] , c:*"
      = .ok [⟨"a<x", .named "y>b" [.builtin .text false, .builtin .integer true] false⟩, ⟨"c", .builtin .any false⟩] := by
    decide +kernel
  have hshown : (ParamType.named "Map" [.builtin .text true, .named "a:b?" [.named "*" [.named "x" [] false] false] false]
      true).display = "Map<text?, a:b?<*<x>>>?" := by decide +kernel
  have hshownList : ParameterList.display
      [⟨"a<x", .named "y>b" [.builtin .text false, .builtin .integer true] false⟩, ⟨"c", .builtin .any false⟩]
      = "a<x:y>b<text, integer?>,c:any" := by decide +kernel
  have hread := parse_display.1 _ _ htype
  have hreadList := parse_display.2.1 _ _ hlist (List.cons_ne_nil _ _)
  rw [hshown] at hread
  rw [hshownList] at hreadList
  exact ⟨hread, hreadList⟩

end Phrasebook
