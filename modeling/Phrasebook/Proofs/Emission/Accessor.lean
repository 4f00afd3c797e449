import Phrasebook.Proofs.Compile.Run
import Phrasebook.Proofs.Emission.Function
import Phrasebook.Proofs.Name.Identifier
import Mathlib.Data.List.Find
import Mathlib.Data.List.Nodup

/-!
# The functions of accessors

The function that is generated for an accessor returns the text that the accessor renders, in each locale and
whatever its parameters and the properties are shown as.

- `Accessor.textShown`: the text of an accessor when only the texts of its values are known; `renderAccepted_eq_textShown`
  says that it is the text that is rendered.
- `AccessorFunction.readable_ofAccessor`: the code of the function can be read.
- `partText_partOf`: an expression shows the pieces of its template as the template does.
- `compile_emits`: the functions of all accessors of a compilation.
-/

namespace Phrasebook

open Phrasebook.Name

/-! ## §1 Names -/

theorem isWord_escaped {ident : String} (h : isIdentifier ident.toList = true) :
    isWord (escaped ident).toList = true := by
  rcases escaped_cases h with hident | ⟨-, hraw⟩
  · exact isWord_of_isIdentifier hident
  · rw [hraw, String.toList_append]
    exact isWord_raw h

theorem isWord_ofParameter (name : String) : isWord (ofParameter name).toList = true := by
  unfold ofParameter
  simp only
  split
  · exact isWord_of_isIdentifier (isIdentifier_append_underscore (isIdentifier_snake name))
  · exact isWord_escaped (isIdentifier_snake name)

theorem isWord_ofLocale (locale : String) : isWord (ofLocale locale).toList = true := by
  rw [ofLocale, String.toList_ofList]
  exact isWord_of_isIdentifier (isIdentifier_variantChars locale.toList)

/-- A character of an identifier stands for itself between quotes. -/
theorem isPlain_of_isIdentifierChar {c : Char} (h : isIdentifierChar c = true) : isPlain c = true := by
  have hquote : c ≠ '"' := by
    intro hc
    subst hc
    exact absurd h (by decide)
  have hslash : c ≠ '\\' := by
    intro hc
    subst hc
    exact absurd h (by decide)
  have hrange : 0x20 ≤ c.toNat ∧ c.toNat < 0x7F := by
    simp only [isIdentifierChar, isAlphanumeric, isLetter, isDigit, Text.isCapital, Bool.or_eq_true, Bool.and_eq_true,
      decide_eq_true_eq, Char.le_def, UInt32.le_iff_toNat_le] at h
    -- Small letters, capitals, digits and the underscore.
    rcases h with ((⟨hlow, hhigh⟩ | ⟨hlow, hhigh⟩) | ⟨hlow, hhigh⟩) | rfl
    · have hlow : 97 ≤ c.toNat := hlow
      have hhigh : c.toNat ≤ 122 := hhigh
      omega
    · have hlow : 65 ≤ c.toNat := hlow
      have hhigh : c.toNat ≤ 90 := hhigh
      omega
    · have hlow : 48 ≤ c.toNat := hlow
      have hhigh : c.toNat ≤ 57 := hhigh
      omega
    · decide
  simp [isPlain, hrange.1, hrange.2, hquote, hslash]

/-- A placeholder that is written back stands for itself between quotes. -/
theorem all_isPlain_placeholder {name : String} (h : isIdentifier name.toList = true) :
    (Segment.placeholder name).written.toList.all isPlain = true := by
  have hname : ∀ c ∈ name.toList, isPlain c = true := fun c hc =>
    isPlain_of_isIdentifierChar (List.all_eq_true.mp (all_isIdentifierChar h) c hc)
  have hopen : isPlain '{' = true := rfl
  have hclose : isPlain '}' = true := rfl
  rw [Segment.written, String.toList_ofList, Segment.chars, Segment.placeholderChars, List.all_cons, List.all_append,
    hopen, List.all_eq_true.mpr hname]
  simp [hclose]

/-! ## §2 Shown texts -/

namespace Accessor

/-- The text of a placeholder with the texts that parameters and properties are shown as. -/
def resolveShown (a : Accessor) (shown : List String) (texts : String → Option String) (name : String) :
    Option String :=
  match a.schema.position? name with
  | some i => shown[i]?
  | none => texts name

/-- The text of a locale with the texts that parameters and properties are shown as. -/
def textShown (a : Accessor) (locale : String) (shown : List String) (texts : String → Option String) : String :=
  match a.select locale with
  | none => a.key
  | some t => t.render (a.resolveShown shown texts)

/-- What is rendered depends only on the texts that the values are shown as. -/
theorem renderAccepted_eq_textShown (a : Accessor) (locale : String) (args : List Json) (properties : PropertySource) :
    a.renderAccepted locale args properties
      = a.textShown locale (args.map Json.display) fun name => (properties name).map Json.display := by
  have hresolve : a.resolve args properties
      = a.resolveShown (args.map Json.display) fun name => (properties name).map Json.display := by
    funext name
    unfold resolve resolveShown
    cases a.schema.position? name with
    | none => rfl
    | some i => exact List.getElem?_map.symm
  cases hselect : a.select locale with
  | none => simp only [renderAccepted, textShown, hselect]
  | some t => simp only [renderAccepted, textShown, hselect, hresolve]

end Accessor

/-- The texts of the properties that are declared. -/
def declaredTexts (properties : KeyMap ParamType) (texts : String → Option String) (name : String) : Option String :=
  if properties.contains name then texts name else none

/-- The fields of the declared properties with their texts. -/
def propertyFields (properties : KeyMap ParamType) (texts : String → Option String) : List (String × Option String) :=
  properties.entries.map fun e => (ofProperty e.1, texts e.1)

/-! ## §3 Expressions of templates -/

/-- A placeholder is the parameter that stands at the place of its name, or else the property of its name, or else it
is written back. -/
theorem partOf_cases (schema : ParameterList) (properties : KeyMap ParamType) (name : String) :
    (∃ p i, schema.position? name = some i ∧ schema[i]? = some p ∧ p.name = name ∧
      TextExpression.partOf schema properties (.placeholder name)
        = .argument (.parameter (ofParameter name) p.type)) ∨
    (∃ t, schema.position? name = none ∧ properties.get? name = some t ∧
      TextExpression.partOf schema properties (.placeholder name)
        = .argument (.property (ofProperty name) t (Segment.placeholder name).written)) ∨
    (schema.position? name = none ∧ properties.get? name = none ∧
      TextExpression.partOf schema properties (.placeholder name)
        = .fixed (Segment.placeholder name).written) := by
  -- A parameter comes before a property of its name, and is known by its place.
  have hplace : schema.find? name = (schema.position? name).bind fun i => schema[i]? :=
    List.find?_eq_bind_findIdx?_getElem?
  cases hfind : schema.find? name with
  | some p =>
    rw [hfind, eq_comm, Option.bind_eq_some_iff] at hplace
    obtain ⟨i, hi, hp⟩ := hplace
    have hname : p.name = name := by simpa using List.find?_some hfind
    exact .inl ⟨p, i, hi, hp, hname, by simp only [TextExpression.partOf, hfind]⟩
  | none =>
    have hnone : schema.position? name = none := by
      rw [ParameterList.find?, List.find?_eq_none] at hfind
      exact List.findIdx?_eq_none_iff.mpr fun p hp => by simpa using hfind p hp
    cases hget : properties.get? name with
    | some t => exact .inr (.inl ⟨t, hnone, rfl, by simp only [TextExpression.partOf, hfind, hget]⟩)
    | none => exact .inr (.inr ⟨hnone, rfl, by simp only [TextExpression.partOf, hfind, hget]⟩)

/-- Of names without repetition, each one stands for what is at its place. -/
theorem find?_zip {α : Type} {names : List String} {values : List α} (hnodup : names.Nodup)
    (hlength : names.length = values.length) {i : Nat} {name : String} {value : α} (hname : names[i]? = some name)
    (hvalue : values[i]? = some value) : Entries.find? name (names.zip values) = some value := by
  apply Entries.find?_of_mem_of_nodup
  · have hkeys : (names.zip values).map (·.1) = names := List.map_fst_zip (Nat.le_of_eq hlength)
    rw [hkeys]
    exact hnodup
  · exact List.mem_of_getElem? (List.getElem?_zip_eq_some.mpr ⟨hname, hvalue⟩)

theorem find?_propertyFields {properties : KeyMap ParamType} (hnodup : (properties.keys.map ofProperty).Nodup)
    (texts : String → Option String) {name : String} (h : properties.contains name = true) :
    Entries.find? (ofProperty name) (propertyFields properties texts) = some (texts name) := by
  apply Entries.find?_of_mem_of_nodup
  · have hkeys : (propertyFields properties texts).map (·.1) = properties.keys.map ofProperty := by
      rw [propertyFields, KeyMap.keys, List.map_map, List.map_map]
      rfl
    rw [hkeys]
    exact hnodup
  · obtain ⟨t, ht⟩ := KeyMap.contains_iff.mp h
    exact List.mem_map.mpr ⟨(name, t), KeyMap.mem_entries_iff.mpr ht, rfl⟩

/-- The texts of arguments in a scope. -/
def shownIn (s : CodeScope) (a : FormatArgument) : String := (a.text? s).getD ""

section Template

variable {a : Accessor} {properties : KeyMap ParamType} {shown : List String} {texts : String → Option String}

/-- The scope of the function of an accessor. -/
def scopeOf (a : Accessor) (properties : KeyMap ParamType) (shown : List String) (texts : String → Option String) :
    CodeScope :=
  ⟨(a.schema.map fun p => ofParameter p.name).zip shown, propertyFields properties texts⟩

/-- An argument has the text that its placeholder is resolved to, or else that of the placeholder itself. -/
theorem text?_partOf (hidents : (a.schema.map fun p => ofParameter p.name).Nodup)
    (hfields : (properties.keys.map ofProperty).Nodup) (hlength : shown.length = a.schema.length) {name : String}
    {argument : FormatArgument}
    (h : TextExpression.partOf a.schema properties (.placeholder name) = .argument argument) :
    argument.text? (scopeOf a properties shown texts)
      = some ((a.resolveShown shown (declaredTexts properties texts) name).getD (Segment.placeholder name).written) := by
  rcases partOf_cases a.schema properties name with ⟨p, i, hi, hp, hname, hpart⟩ | ⟨t, hi, hget, hpart⟩ | ⟨-, -, hpart⟩
  · -- The identifier of a parameter has the place of the parameter, and so has its text.
    obtain rfl := TextPart.argument.inj (hpart.symm.trans h)
    have hlt : i < shown.length := hlength ▸ (List.getElem?_eq_some_iff.mp hp).1
    have htext : shown[i]? = some shown[i] := List.getElem?_eq_getElem hlt
    have hident : (a.schema.map fun p => ofParameter p.name)[i]? = some (ofParameter name) := by
      rw [List.getElem?_map, hp, Option.map_some, hname]
    have hlengths : (a.schema.map fun p => ofParameter p.name).length = shown.length := by
      rw [List.length_map, hlength]
    rw [FormatArgument.text?, scopeOf, find?_zip hidents hlengths hident htext, Accessor.resolveShown, hi]
    simp only [htext, Option.getD_some]
  · -- A property that is not set has the text of its placeholder.
    obtain rfl := TextPart.argument.inj (hpart.symm.trans h)
    have hcontains : properties.contains name = true := KeyMap.contains_iff.mpr ⟨t, hget⟩
    rw [FormatArgument.text?, scopeOf, find?_propertyFields hfields texts hcontains, Accessor.resolveShown, hi]
    simp only [declaredTexts, hcontains, ↓reduceIte, Option.map_some]
  · cases hpart.symm.trans h

/-- A part of an expression shows what its piece of the template shows. -/
theorem partText_partOf (hidents : (a.schema.map fun p => ofParameter p.name).Nodup)
    (hfields : (properties.keys.map ofProperty).Nodup) (hlength : shown.length = a.schema.length) (segment : Segment) :
    TextExpression.partText (shownIn (scopeOf a properties shown texts))
        (TextExpression.partOf a.schema properties segment)
      = Template.renderSegment (a.resolveShown shown (declaredTexts properties texts)) segment := by
  cases segment with
  | literal text => rfl
  | placeholder name =>
    cases hpart : TextExpression.partOf a.schema properties (.placeholder name) with
    | argument argument =>
      rw [TextExpression.partText, shownIn, text?_partOf hidents hfields hlength hpart]
      rfl
    | fixed text =>
      -- A placeholder that is fixed is neither a parameter nor a property, so nothing is put in its place.
      rcases partOf_cases a.schema properties name with ⟨p, i, -, -, -, hcase⟩ | ⟨t, -, -, hcase⟩ | ⟨hi, hget, hcase⟩
      · cases hcase.symm.trans hpart
      · cases hcase.symm.trans hpart
      · obtain rfl := TextPart.fixed.inj (hcase.symm.trans hpart)
        have hcontains : properties.contains name = false := by rw [KeyMap.contains, hget, Option.isSome_none]
        simp only [TextExpression.partText, Template.renderSegment, Accessor.resolveShown, hi, declaredTexts,
          hcontains, Bool.false_eq_true, ↓reduceIte, Option.getD_none]

/-- The expression of a template shows the text of the template. -/
theorem textOf_ofTemplate (hidents : (a.schema.map fun p => ofParameter p.name).Nodup)
    (hfields : (properties.keys.map ofProperty).Nodup) (hlength : shown.length = a.schema.length) (t : Template) :
    (TextExpression.ofTemplate a.schema properties t).textOf (shownIn (scopeOf a properties shown texts))
      = t.render (a.resolveShown shown (declaredTexts properties texts)) := by
  unfold TextExpression.textOf TextExpression.ofTemplate Template.render
  rw [List.map_map]
  congr 1
  apply List.map_congr_left
  intro segment _
  exact partText_partOf hidents hfields hlength segment

theorem exists_of_mem_arguments {schema : ParameterList} {t : Template} {argument : FormatArgument}
    (h : argument ∈ (TextExpression.ofTemplate schema properties t).arguments) :
    ∃ name, .placeholder name ∈ t.segments ∧
      TextExpression.partOf schema properties (.placeholder name) = .argument argument := by
  obtain ⟨part, hpart, hargument⟩ := List.mem_filterMap.mp h
  obtain ⟨segment, hsegment, rfl⟩ := List.mem_map.mp hpart
  cases segment with
  | literal text => cases hargument
  | placeholder name =>
    refine ⟨name, hsegment, ?_⟩
    cases hpart : TextExpression.partOf schema properties (.placeholder name) with
    | fixed text => simp only [hpart, reduceCtorEq] at hargument
    | argument a =>
      simp only [hpart, Option.some.injEq] at hargument
      rw [hargument]

/-- The arguments of the expression of a template can be read. -/
theorem readable_ofTemplate {schema : ParameterList} {t : Template} :
    ∀ argument ∈ (TextExpression.ofTemplate schema properties t).arguments, argument.Readable := by
  intro argument hargument
  obtain ⟨name, hname, hpart⟩ := exists_of_mem_arguments hargument
  rcases partOf_cases schema properties name with ⟨p, i, -, -, -, hcase⟩ | ⟨t, -, -, hcase⟩ | ⟨-, -, hcase⟩
  · obtain rfl := TextPart.argument.inj (hcase.symm.trans hpart)
    exact isWord_ofParameter name
  · -- The placeholder of a property stands between quotes, where an identifier needs no escapes.
    obtain rfl := TextPart.argument.inj (hcase.symm.trans hpart)
    have hplain := all_isPlain_placeholder (Template.isIdentifier_of_mem_segments hname)
    exact ⟨isWord_escaped (isIdentifier_snake name), hplain⟩
  · cases hcase.symm.trans hpart

/-- The arguments of the expression of a template have texts. -/
theorem text?_of_mem_arguments (hidents : (a.schema.map fun p => ofParameter p.name).Nodup)
    (hfields : (properties.keys.map ofProperty).Nodup) (hlength : shown.length = a.schema.length) {t : Template}
    {argument : FormatArgument} (h : argument ∈ (TextExpression.ofTemplate a.schema properties t).arguments) :
    argument.text? (scopeOf a properties shown texts)
      = some (shownIn (scopeOf a properties shown texts) argument) := by
  obtain ⟨name, -, hpart⟩ := exists_of_mem_arguments h
  rw [shownIn, text?_partOf hidents hfields hlength hpart]
  rfl

end Template

/-! ## §4 Functions of accessors -/

namespace AccessorFunction

variable {a : Accessor} {properties : KeyMap ParamType}

theorem readable_localeParameter : localeParameter.Readable := by
  have htype : isWord localeParameter.type.toList = true := rfl
  exact ⟨rfl, stoppable_of_isWord htype, by decide⟩

theorem readable_propertiesParameter : propertiesParameter.Readable := by
  have hreference : Complete ("&".toList) := fun rest => rfl
  have hname : isWord "Properties".toList = true := rfl
  exact ⟨rfl, hreference.append_stoppable (stoppable_of_isWord hname), by decide⟩

/-- The code of the function of an accessor can be read. -/
theorem readable_ofAccessor (hident : a.ident = accessor a.key) : (ofAccessor properties a).Readable where
  ident := by
    show isWord (escaped a.ident).toList = true
    rw [hident]
    exact isWord_escaped (isIdentifier_accessor a.key)
  parameters := by
    intro p hp
    rcases List.mem_cons.mp hp with rfl | hp
    · exact readable_localeParameter
    · rcases List.mem_cons.mp hp with rfl | hp
      · exact readable_propertiesParameter
      · obtain ⟨q, -, rfl⟩ := List.mem_map.mp hp
        exact ⟨isWord_ofParameter q.name, lex_borrowedType q.type⟩
  variants := by
    intro arm harm
    obtain ⟨b, -, rfl⟩ := List.mem_map.mp harm
    exact isWord_ofLocale b.locale
  arms := by
    intro arm harm
    obtain ⟨b, -, rfl⟩ := List.mem_map.mp harm
    exact readable_ofTemplate
  fallback := by
    unfold ofAccessor
    cases a.fallback with
    | some b => exact readable_ofTemplate
    | none =>
      intro argument hargument
      cases hargument

/-- The expression that makes the text of a template, or else that of the key. -/
def expressionOf (a : Accessor) (properties : KeyMap ParamType) : Option Template → TextExpression
  | some t => .ofTemplate a.schema properties t
  | none => .ofKey a.key

/-- The function chooses the expression of the template that the accessor selects, when the variants of its locales
tell them apart. -/
theorem chosen_ofAccessor {locale : String}
    (hvariants : ∀ b ∈ a.branches, ofLocale b.locale = ofLocale locale → b.locale = locale) :
    (ofAccessor properties a).chosen (ofLocale locale) = expressionOf a properties (a.select locale) := by
  -- Branches are chosen by variant in the code, and by locale in the accessor.
  have hsame : (a.branches.find? fun b => ofLocale b.locale == ofLocale locale)
      = a.branches.find? fun b => b.locale == locale := by
    apply List.find?_congr
    intro b hb
    by_cases hlocale : b.locale = locale
    · simp [hlocale]
    · have hvariant : ofLocale b.locale ≠ ofLocale locale := fun h => hlocale (hvariants b hb h)
      simp [hlocale, hvariant]
  have hfind : ((ofAccessor properties a).arms.find? fun arm => arm.1 == ofLocale locale)
      = (a.branches.find? fun b => b.locale == locale).map fun b =>
          (ofLocale b.locale, .ofTemplate a.schema properties b.template) := by
    rw [← hsame]
    exact List.find?_map
  rw [chosen, hfind, Accessor.select]
  cases a.branches.find? fun b => b.locale == locale with
  | some b => rfl
  | none =>
    unfold ofAccessor
    cases a.fallback with
    | some b => rfl
    | none => rfl

theorem idents_ofAccessor (properties : KeyMap ParamType) (a : Accessor) :
    (ofAccessor properties a).parameters.map (·.ident)
      = "locale" :: "props" :: a.schema.map fun p => ofParameter p.name := by
  unfold ofAccessor localeParameter propertiesParameter
  rw [List.map_cons, List.map_cons, List.map_map]
  rfl

/-- No parameter has the name of another one, or that of the locale or of the properties. -/
theorem idents_nodup (hidents : (a.schema.map fun p => ofParameter p.name).Nodup) :
    ("locale" :: "props" :: a.schema.map fun p => ofParameter p.name).Nodup := by
  have hfree : ∀ x ∈ taken, x ∉ a.schema.map fun p => ofParameter p.name := by
    intro x hx hmem
    obtain ⟨p, -, rfl⟩ := List.mem_map.mp hmem
    exact ofParameter_not_mem_taken p.name hx
  have hprops := List.nodup_cons.mpr ⟨hfree "props" (by decide), hidents⟩
  refine List.nodup_cons.mpr ⟨fun hmem => ?_, hprops⟩
  rcases List.mem_cons.mp hmem with heq | hmem
  · exact absurd heq (by decide)
  · exact hfree "locale" (by decide) hmem

section Evaluation

variable {shown : List String} (hidents : (a.schema.map fun p => ofParameter p.name).Nodup)
  (hfields : (properties.keys.map ofProperty).Nodup) (hlength : shown.length = a.schema.length)
  (texts : String → Option String)
include hidents hfields hlength

/-- The arguments of a chosen expression have texts. -/
theorem text?_of_mem_expressionOf (template : Option Template) :
    ∀ argument ∈ (expressionOf a properties template).arguments,
      argument.text? (scopeOf a properties shown texts)
        = some (shownIn (scopeOf a properties shown texts) argument) := by
  intro argument hargument
  cases template with
  | some t => exact text?_of_mem_arguments hidents hfields hlength hargument
  | none => cases hargument

/-- The chosen expression shows the text of the accessor. -/
theorem textOf_expressionOf (locale : String) :
    (expressionOf a properties (a.select locale)).textOf (shownIn (scopeOf a properties shown texts))
      = a.textShown locale shown (declaredTexts properties texts) := by
  unfold Accessor.textShown
  cases a.select locale with
  | some t => exact textOf_ofTemplate hidents hfields hlength t
  | none =>
    show "" ++ a.key = a.key
    exact String.empty_append

/-- The code of the function of an accessor means the text of the accessor. -/
theorem evaluate_ofAccessor (hident : a.ident = accessor a.key) {locale : String}
    (hvariants : ∀ b ∈ a.branches, ofLocale b.locale = ofLocale locale → b.locale = locale) :
    FunctionCall.evaluate ⟨ofLocale locale, shown, propertyFields properties texts⟩ (ofAccessor properties a).item
      = some (a.textShown locale shown (declaredTexts properties texts)) := by
  have hchosen := @chosen_ofAccessor a properties locale hvariants
  have hlengths : (a.schema.map fun p => ofParameter p.name).length = shown.length := by
    rw [List.length_map, hlength]
  have hshown := text?_of_mem_expressionOf hidents hfields hlength texts (a.select locale)
  rw [← hchosen] at hshown
  have heval := evaluate_item (c := ⟨ofLocale locale, shown, propertyFields properties texts⟩)
    (readable_ofAccessor hident) (idents_ofAccessor properties a) (idents_nodup hidents) hlengths hshown
  rw [heval]
  show some (((ofAccessor properties a).chosen (ofLocale locale)).textOf _) = _
  rw [hchosen, textOf_expressionOf hidents hfields hlength texts]

end Evaluation

end AccessorFunction

namespace Compile

/-! ## §5 Compilations -/

/-- **Generated functions**: in each configured locale, the function of an accessor returns the text that the accessor
renders, whatever its parameters and the declared properties are shown as. -/
theorem compile_emits {s : Settings} {cs : List Contract} {loader : SourceLoader} {o : CompileOutput}
    (h : compile s cs loader = .ok o) :
    ∀ t ∈ o.tables, ∀ key a, t.accessors.get? key = some a → ∀ locale ∈ s.locales, ∀ shown texts,
      shown.length = a.schema.length →
      FunctionCall.evaluate ⟨ofLocale locale, shown, propertyFields s.properties texts⟩
          (AccessorFunction.ofAccessor s.properties a).item
        = some (a.textShown locale shown (declaredTexts s.properties texts)) ∧
      ('\n' ∉ a.key.toList →
        FunctionCall.evaluate ⟨ofLocale locale, shown, propertyFields s.properties texts⟩
            (CodeLine.writtenAll (AccessorFunction.ofAccessor s.properties a).lines)
          = some (a.textShown locale shown (declaredTexts s.properties texts))) := by
  intro t ht key a ha locale hlocale shown texts hlength
  obtain ⟨runs, rfl, htables⟩ := exists_runs h
  obtain ⟨-, hlocales, hfields⟩ := Settings.validate_eq_ok_iff.mp (validate_of_compile h)
  rw [htables] at ht
  obtain ⟨r, -, rfl⟩ := List.mem_map.mp ht
  -- What the code needs are the checks of names that the compilation has passed.
  have hidents := Table.idents_nodup_of_get? r.generated ha
  rw [ParameterList.names, List.map_map] at hidents
  rw [Table.get?_accessors r.generated, Option.map_eq_some_iff] at ha
  obtain ⟨e, -, rfl⟩ := ha
  have hvariants : ∀ b ∈ (Table.accessorOf s.locales s.defaultLocale key e).branches,
      ofLocale b.locale = ofLocale locale → b.locale = locale := by
    intro b hb hvariant
    exact List.inj_on_of_nodup_map hlocales (Table.mem_locales_of_mem_branchesOf hb) hlocale hvariant
  have hitem := AccessorFunction.evaluate_ofAccessor hidents hfields hlength texts rfl hvariants
  refine ⟨hitem, fun hkey => ?_⟩
  rw [FunctionCall.evaluate, AccessorFunction.lex_lines hkey]
  exact hitem

/-- A property that is not set leaves its placeholder in the text. -/
theorem compile_emits_greeting :
    ∃ o, compile Greetings.settings [Greetings.contract] Greetings.sources = .ok o ∧ ∃ t ∈ o.tables, ∃ a,
      t.accessors.get? "greeting" = some a ∧
      FunctionCall.evaluate ⟨ofLocale "en-US", ["Ada"], propertyFields Greetings.settings.properties fun _ => none⟩
          (AccessorFunction.ofAccessor Greetings.settings.properties a).item = some "Hello Ada of {brand}" := by
  obtain ⟨o, ho, t, ht, a, ha, hschema, htext⟩ : ∃ o,
      compile Greetings.settings [Greetings.contract] Greetings.sources = .ok o ∧ ∃ t ∈ o.tables, ∃ a,
        t.accessors.get? "greeting" = some a ∧ a.schema.length = 1 ∧
        a.textShown "en-US" ["Ada"] (declaredTexts Greetings.settings.properties fun _ => none)
          = "Hello Ada of {brand}" :=
    ⟨_, rfl, _, List.mem_cons_self, _, rfl, rfl, rfl⟩
  have hemits := (compile_emits ho t ht "greeting" a ha "en-US" (by decide) ["Ada"] (fun _ => none) hschema.symm).1
  exact ⟨o, ho, t, ht, a, ha, htext ▸ hemits⟩

end Compile

end Phrasebook
