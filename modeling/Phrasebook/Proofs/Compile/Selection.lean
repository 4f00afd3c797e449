import Phrasebook.Proofs.Accessor.Calls
import Phrasebook.Proofs.Catalog.Schema
import Phrasebook.Proofs.Compile.Run
import Phrasebook.Proofs.Contract.Declaration

/-!
# Which text a key is rendered with

The table of a contract has the keys that its methods declare and those of the sources of its file. The text of a
key in a locale comes from the source of that locale, or else from that of the default locale, or else from the first
source that has the key.

- `textAt?` is the text that a source has at a key, and `chosenText?` the text that stands for it in a locale.
- `ContractRun.select_eq`: an accessor of a compiled contract selects the chosen text.
- `compile_selects`: so it is for all contracts of a compilation.
-/

namespace Phrasebook

namespace Compile

/-! ## §1 Texts of sources -/

/-- The text of a key in a locale, if the locale has a source of the file and the source has the key. -/
def textAt? (loader : SourceLoader) (file key locale : String) : Option String :=
  match loader locale file with
  | .found _ tree => (tree.flatten.get? key).map (·.text)
  | _ => none

/-- The text that stands for a key in a locale: that of the locale, or else that of the default locale, or else that
of the first locale which has the key. -/
def chosenText? (s : Settings) (loader : SourceLoader) (file key locale : String) : Option String :=
  (textAt? loader file key locale).or
    ((textAt? loader file key s.defaultLocale).or (s.locales.findSome? (textAt? loader file key)))

/-- The text that a locale has of a key: no locale has the empty key, which is no key of a source. -/
def phraseAt? (loader : SourceLoader) (file key locale : String) : Option String :=
  (sourceOf? loader file locale).bind fun l => (l.leaf? key).map (·.text)

theorem phraseAt?_eq_textAt? (loader : SourceLoader) (file : String) {key : String} (hkey : key ≠ "")
    (locale : String) : phraseAt? loader file key locale = textAt? loader file key locale := by
  unfold phraseAt? sourceOf? textAt?
  cases loader locale file with
  | found path tree =>
    have hleaf : (LocaleEntries.ofTree locale path tree).named.leaf? key = tree.flatten.get? key := by
      simp [LocaleEntries.leaf?, LocaleEntries.named, LocaleEntries.ofTree, KeyMap.get?_erase, hkey]
    rw [Option.bind_some, hleaf]
  | missing path => rfl
  | failed path cause => rfl

theorem locale_of_sourceOf? {loader : SourceLoader} {file locale : String} {l : LocaleEntries}
    (h : sourceOf? loader file locale = some l) : l.locale = locale := by
  unfold sourceOf? at h
  split at h
  · obtain rfl := Option.some.inj h
    rfl
  · cases h

theorem map_leaf_sourceOf? (loader : SourceLoader) (file key locale : String) :
    ((sourceOf? loader file locale).bind fun l => (l.leaf? key).map fun leaf => (l.locale, (⟨leaf.text⟩ : Template)))
      = (phraseAt? loader file key locale).map fun text => (locale, ⟨text⟩) := by
  unfold phraseAt?
  cases hsource : sourceOf? loader file locale with
  | none => rfl
  | some l =>
    rw [Option.bind_some, Option.bind_some, Option.map_map, locale_of_sourceOf? hsource]
    rfl

theorem isSome_phraseAt?_iff {loader : SourceLoader} {file key locale : String} :
    (phraseAt? loader file key locale).isSome ↔ ∃ l, sourceOf? loader file locale = some l ∧ l.has key = true := by
  unfold phraseAt?
  cases sourceOf? loader file locale with
  | none => simp
  | some l => simp [LocaleEntries.has, LocaleEntries.leaf?, KeyMap.contains]

theorem phraseAt?_empty (loader : SourceLoader) (file locale : String) : phraseAt? loader file "" locale = none := by
  unfold phraseAt? sourceOf?
  cases loader locale file with
  | found path tree => simp [LocaleEntries.leaf?, LocaleEntries.named, KeyMap.get?_erase]
  | missing path => rfl
  | failed path cause => rfl

/-- A key is sourced when one of the locales has a text of it. -/
theorem sourced_iff {loader : SourceLoader} {file key : String} {locales : List String} :
    SchemaResolution.Sourced (locales.filterMap (sourceOf? loader file)) key ↔
      ∃ locale ∈ locales, (phraseAt? loader file key locale).isSome := by
  simp only [SchemaResolution.Sourced, List.mem_filterMap, isSome_phraseAt?_iff]
  refine ⟨fun h => ?_, fun h => ?_⟩
  · obtain ⟨-, l, ⟨locale, hlocale, hl⟩, hkey⟩ := h
    exact ⟨locale, hlocale, l, hl, hkey⟩
  · obtain ⟨locale, hlocale, l, hl, hkey⟩ := h
    refine ⟨?_, l, ⟨locale, hlocale, hl⟩, hkey⟩
    rintro rfl
    have hsome := isSome_phraseAt?_iff.mpr ⟨l, hl, hkey⟩
    rw [phraseAt?_empty] at hsome
    cases hsome

/-- Where each result of a function leads back to its argument, the results are those of a part of the list. -/
theorem map_filterMap_eq_filter {α β : Type} {f : α → Option β} {g : β → α} (h : ∀ a b, f a = some b → g b = a)
    (l : List α) : (l.filterMap f).map g = l.filter fun a => (f a).isSome := by
  induction l with
  | nil => rfl
  | cons a l ih =>
    rw [List.filterMap_cons]
    cases hf : f a with
    | none => simp [hf, ih]
    | some b => simp [hf, ih, h a b hf]

/-- The first result of a function on a list depends on its results there only. -/
private theorem findSome?_congr {α : Type} {f g : String → Option α} {ls : List String}
    (h : ∀ l ∈ ls, f l = g l) : ls.findSome? f = ls.findSome? g := by
  induction ls with
  | nil => rfl
  | cons l ls ih =>
    have htail := ih fun l' hl' => h l' (List.mem_cons_of_mem _ hl')
    rw [List.findSome?_cons, List.findSome?_cons, h l List.mem_cons_self, htail]

namespace ContractRun

variable {s : Settings} {loader : SourceLoader}

/-! ## §2 Keys -/

/-- The phrases of a file are those of the configured locales that have a source. -/
theorem mem_entries_iff (r : ContractRun s loader) {l : LocaleEntries} :
    l ∈ r.sources.entries ↔ l.locale ∈ s.locales ∧ sourceOf? loader r.file l.locale = some l := by
  rw [r.sources_entries, List.mem_filterMap]
  refine ⟨fun h => ?_, fun h => ⟨l.locale, h⟩⟩
  obtain ⟨locale, hlocale, hsource⟩ := h
  obtain rfl := locale_of_sourceOf? hsource
  exact ⟨hlocale, hsource⟩

theorem declares_iff (r : ContractRun s loader) (key : String) :
    SchemaResolution.Declares r.declarations key ↔ ∃ m ∈ r.contract.methods, m.keyName = key := by
  show (∃ d ∈ r.declarations, d.key = key) ↔ _
  rw [← List.mem_map, keys_of_declarations r.declared, List.mem_map]

theorem get?_accessors (r : ContractRun s loader) (key : String) :
    r.table.accessors.get? key = (r.resolution.schemas.get? key).map fun schema =>
      Table.accessorOf s.locales s.defaultLocale key (Assembly.entry r.sources.entries key schema) := by
  rw [Table.get?_accessors r.generated]
  simp only [Assembly.assemble, KeyMap.get?_mapValues, Option.map_map]
  rfl

theorem key_of_get? (r : ContractRun s loader) {key : String} {a : Accessor}
    (ha : r.table.accessors.get? key = some a) : a.key = key := by
  rw [r.get?_accessors, Option.map_eq_some_iff] at ha
  obtain ⟨schema, -, rfl⟩ := ha
  rfl

theorem ident_of_get? (r : ContractRun s loader) {key : String} {a : Accessor}
    (ha : r.table.accessors.get? key = some a) : a.ident = Name.accessor a.key := by
  rw [r.get?_accessors, Option.map_eq_some_iff] at ha
  obtain ⟨schema, -, rfl⟩ := ha
  rfl

/-- The table has the keys that a method declares or a source has. -/
theorem contains_iff_phrase (r : ContractRun s loader) {key : String} :
    r.table.accessors.contains key = true ↔
      (∃ m ∈ r.contract.methods, m.keyName = key) ∨
        ∃ locale ∈ s.locales, (phraseAt? loader r.file key locale).isSome := by
  rw [← r.declares_iff, ← sourced_iff, ← r.sources_entries,
    ← SchemaResolution.declares_or_sourced_iff r.resolved, KeyMap.contains, r.get?_accessors, Option.isSome_map]
  rfl

theorem contains_iff (r : ContractRun s loader) {key : String} (hkey : key ≠ "") :
    r.table.accessors.contains key = true ↔
      (∃ m ∈ r.contract.methods, m.keyName = key) ∨
        ∃ locale ∈ s.locales, (textAt? loader r.file key locale).isSome := by
  simp only [r.contains_iff_phrase, phraseAt?_eq_textAt? loader r.file hkey]

/-! ## §3 Templates -/

/-- The templates of a key are its texts in the configured locales. -/
theorem templatesOf_eq (r : ContractRun s loader) (key : String) :
    Assembly.templatesOf key r.sources.entries
      = s.locales.filterMap fun l => ((phraseAt? loader r.file key l).map Template.mk).map fun t => (l, t) := by
  -- Locales without a source and sources without the key are both passed over.
  rw [r.sources_entries, Assembly.templatesOf, List.filterMap_filterMap]
  congr 1
  funext l
  rw [map_leaf_sourceOf?, Option.map_map]
  rfl

theorem get?_templates (r : ContractRun s loader) (key : String) (schema : KeySchema) (locale : String) :
    (Assembly.entry r.sources.entries key schema).templates.get? locale
      = if locale ∈ s.locales then (phraseAt? loader r.file key locale).map Template.mk else none := by
  rw [Assembly.entry, r.templatesOf_eq, KeyMap.get?_ofList_filterMap]

/-- The template of all other locales is that of the default locale, or else the first one. -/
theorem fallback_eq (r : ContractRun s loader) (hdefault : s.defaultLocale ∈ s.locales) {key : String} {a : Accessor}
    (ha : r.table.accessors.get? key = some a) :
    a.fallback = (s.defaultLocale :: s.locales).findSome? fun l =>
      (phraseAt? loader r.file key l).map fun text => ⟨l, ⟨text⟩⟩ := by
  rw [r.get?_accessors, Option.map_eq_some_iff] at ha
  obtain ⟨schema, -, rfl⟩ := ha
  simp only [Table.accessorOf, Table.fallbackOf]
  apply findSome?_congr
  intro l hl
  have hmem : l ∈ s.locales := by
    rcases List.mem_cons.mp hl with rfl | hl
    · exact hdefault
    · exact hl
  rw [r.get?_templates, if_pos hmem, Option.map_map]
  rfl

/-- An accessor selects the text of the locale, or else that of the default locale, or else the first one. -/
theorem select_eq_phrase (r : ContractRun s loader) (hdefault : s.defaultLocale ∈ s.locales) {key : String}
    {a : Accessor} (ha : r.table.accessors.get? key = some a) {locale : String} (hlocale : locale ∈ s.locales) :
    a.select locale = ((phraseAt? loader r.file key locale).or ((phraseAt? loader r.file key s.defaultLocale).or
      (s.locales.findSome? (phraseAt? loader r.file key)))).map Template.mk := by
  rw [r.get?_accessors, Option.map_eq_some_iff] at ha
  obtain ⟨schema, -, rfl⟩ := ha
  rw [Table.select_accessorOf key _ hlocale, r.get?_templates, r.get?_templates, if_pos hlocale, if_pos hdefault]
  -- The choice only goes through configured locales, whose templates are their texts.
  have hfirst : (s.locales.findSome? fun l => (Assembly.entry r.sources.entries key schema).templates.get? l)
      = (s.locales.findSome? (phraseAt? loader r.file key)).map Template.mk := by
    rw [List.map_findSome?]
    apply findSome?_congr
    intro l hl
    rw [r.get?_templates, if_pos hl]
    rfl
  rw [hfirst, Option.map_or, Option.map_or]

/-- A locale with a text selects it. -/
theorem select_of_phrase (r : ContractRun s loader) (hdefault : s.defaultLocale ∈ s.locales) {key : String}
    {a : Accessor} (ha : r.table.accessors.get? key = some a) {locale text : String} (hlocale : locale ∈ s.locales)
    (htext : phraseAt? loader r.file key locale = some text) : a.select locale = some ⟨text⟩ := by
  rw [r.select_eq_phrase hdefault ha hlocale, htext]
  rfl

/-- An accessor selects the text that stands for its key in a locale. -/
theorem select_eq (r : ContractRun s loader) (hdefault : s.defaultLocale ∈ s.locales) {key : String}
    (hkey : key ≠ "") {a : Accessor} (ha : r.table.accessors.get? key = some a) {locale : String}
    (hlocale : locale ∈ s.locales) :
    a.select locale = (chosenText? s loader r.file key locale).map Template.mk := by
  have htexts : phraseAt? loader r.file key = textAt? loader r.file key :=
    funext (phraseAt?_eq_textAt? loader r.file hkey)
  rw [r.select_eq_phrase hdefault ha hlocale, htexts, chosenText?]

/-- Whatever locale is asked for, only texts of configured locales are selected. -/
theorem exists_textAt?_of_select (r : ContractRun s loader) (hdefault : s.defaultLocale ∈ s.locales) {key : String}
    (hkey : key ≠ "") {a : Accessor} (ha : r.table.accessors.get? key = some a) {locale : String}
    {template : Template} (hselect : a.select locale = some template) :
    ∃ l ∈ s.locales, textAt? loader r.file key l = some template.raw := by
  rw [r.get?_accessors, Option.map_eq_some_iff] at ha
  obtain ⟨schema, -, rfl⟩ := ha
  obtain ⟨l, hl, hget⟩ := Table.exists_template_of_select hselect
  -- The default locale is a configured one, too.
  have hmem : l ∈ s.locales := by
    rcases List.mem_cons.mp hl with rfl | hl
    · exact hdefault
    · exact hl
  rw [r.get?_templates, if_pos hmem, phraseAt?_eq_textAt? loader r.file hkey, Option.map_eq_some_iff] at hget
  obtain ⟨text, htext, rfl⟩ := hget
  exact ⟨l, hmem, htext⟩

/-- What is selected is what is rendered. -/
theorem render_of_select (r : ContractRun s loader) {key : String} {a : Accessor}
    (ha : r.table.accessors.get? key = some a) {locale : String} (hlocale : locale ∈ s.locales) {template : Template}
    (hselect : a.select locale = some template) (properties : PropertySource) :
    (∀ args values, a.checkArguments args = .ok values →
        r.table.render key locale args properties = .ok (template.render (a.resolve values properties))) ∧
      ∀ named values, a.namedArguments named = .ok values →
        r.table.renderByName key locale named properties = .ok (template.render (a.resolve values properties)) := by
  have hknown : locale ∈ r.table.locales := by rwa [Table.locales_of_ofCatalog r.generated]
  have hrendered : ∀ values,
      a.renderAccepted locale values properties = template.render (a.resolve values properties) := by
    intro values
    rw [Accessor.renderAccepted, hselect]
  refine ⟨fun args values hargs => ?_, fun named values hnamed => ?_⟩
  · rw [Table.render_of_accepted hknown ha hargs, hrendered]
  · rw [Table.renderByName_of_accepted hknown ha hnamed, hrendered]

/-- A key without a text in any locale is rendered as itself, whatever the arguments are. -/
theorem render_eq_key (r : ContractRun s loader) {key : String} {a : Accessor}
    (ha : r.table.accessors.get? key = some a) {locale : String} (hlocale : locale ∈ s.locales)
    (hselect : a.select locale = none) (properties : PropertySource) :
    (∀ args accepted, a.checkArguments args = .ok accepted →
        r.table.render key locale args properties = .ok key) ∧
      ∀ named accepted, a.namedArguments named = .ok accepted →
        r.table.renderByName key locale named properties = .ok key := by
  have hknown : locale ∈ r.table.locales := by rwa [Table.locales_of_ofCatalog r.generated]
  have hkey : ∀ accepted, a.renderAccepted locale accepted properties = key := fun accepted =>
    (Accessor.renderAccepted_of_select_eq_none hselect accepted properties).trans (r.key_of_get? ha)
  refine ⟨fun args accepted hargs => ?_, fun named accepted hargs => ?_⟩
  · rw [Table.render_of_accepted hknown ha hargs, hkey]
  · rw [Table.renderByName_of_accepted hknown ha hargs, hkey]

end ContractRun

/-! ## §4 Compilations -/

/-- **Selection**: each table of a compilation has the keys that are declared or sourced, an accessor selects the
text that stands for its key in a configured locale, and a key without a text is rendered as itself. -/
theorem compile_selects {s : Settings} {cs : List Contract} {loader : SourceLoader} {o : CompileOutput}
    (h : compile s cs loader = .ok o) :
    List.Forall₂ (fun c t => t.contract = c.name ∧ ∀ key, key ≠ "" →
      (t.accessors.contains key = true ↔ (∃ m ∈ c.methods, m.keyName = key) ∨
        ∃ locale ∈ s.locales, (textAt? loader (c.fileName s.package) key locale).isSome) ∧
      ∀ a, t.accessors.get? key = some a →
        (∀ locale ∈ s.locales,
          a.select locale = (chosenText? s loader (c.fileName s.package) key locale).map Template.mk ∧
          (chosenText? s loader (c.fileName s.package) key locale = none → ∀ properties,
            (∀ args accepted, a.checkArguments args = .ok accepted →
              t.render key locale args properties = .ok key) ∧
            ∀ named accepted, a.namedArguments named = .ok accepted →
              t.renderByName key locale named properties = .ok key)) ∧
        ∀ locale template, a.select locale = some template →
          ∃ l ∈ s.locales, textAt? loader (c.fileName s.package) key l = some template.raw)
      cs o.tables := by
  obtain ⟨runs, rfl, htables⟩ := exists_runs h
  have hdefault := (Settings.validate_eq_ok_iff.mp (validate_of_compile h)).1
  rw [htables, List.forall₂_map_left_iff, List.forall₂_map_right_iff, List.forall₂_same]
  intro r _
  refine ⟨r.table_contract, fun key hkey => ⟨r.contains_iff hkey, fun a ha => ⟨fun locale hlocale => ?_, ?_⟩⟩⟩
  · have hselect := r.select_eq hdefault hkey ha hlocale
    refine ⟨hselect, fun hnone properties => ?_⟩
    -- Without a text to choose, the accessor has none either and the key stands for it.
    have hnothing : a.select locale = none := by
      rw [hselect]
      exact congrArg (Option.map Template.mk) hnone
    exact r.render_eq_key ha hlocale hnothing properties
  · intro locale template hselect
    exact r.exists_textAt?_of_select hdefault hkey ha hselect

/-- A locale without a source selects the text of the first locale when the default locale lacks the key. -/
theorem compile_selects_farewell :
    ∃ o, compile Greetings.settings [Greetings.contract] Greetings.sources = .ok o ∧
      ∃ t, o.tables = [t] ∧ ∃ a, t.accessors.get? "farewell" = some a ∧
        a.select "fr-FR" = some ⟨"Bye {guest}"⟩ := by
  obtain ⟨o, ho⟩ : ∃ o, compile Greetings.settings [Greetings.contract] Greetings.sources = .ok o := ⟨_, rfl⟩
  obtain ⟨t, ts, hselects, hts, htables⟩ := List.forall₂_cons_left_iff.mp (compile_selects ho)
  obtain rfl := List.forall₂_nil_left_iff.mp hts
  obtain ⟨hkeys, haccessor⟩ := hselects.2 "farewell" (by decide)
  have hsourced : t.accessors.contains "farewell" = true := hkeys.mpr (.inr ⟨"en-US", by decide, rfl⟩)
  obtain ⟨a, ha⟩ := KeyMap.contains_iff.mp hsourced
  have hselect := ((haccessor a ha).1 "fr-FR" (by decide)).1
  exact ⟨o, ho, t, htables, a, ha, hselect⟩

end Compile

end Phrasebook
