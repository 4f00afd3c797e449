import Phrasebook.Proofs.Compile.Issues
import Phrasebook.Proofs.Compile.Selection

/-!
# Gaps are reported as they are rendered

What a compilation reports as missing is found in the sources that were loaded, and what stands in for it is chosen
from the configured locales, the default one first. The two agree.

## Layers

- `exists_missingSource_iff`: the sources that are missing, told once for all contracts of a file.
- `exists_missingTranslation_iff`, `exists_missingTemplate_iff`, `missingDefault_mem_outputOf_iff`: the keys that are.
- `ContractRun.exists_fallback`, `ContractRun.select_eq_fallback`: what stands in for a missing key.
- `compile_reports_gaps`: the two agree for all keys of a compilation.
-/

namespace Phrasebook

namespace Compile

variable {s : Settings} {loader : SourceLoader}

namespace ContractRun

/-! ## §1 Missing sources -/

/-- No source of a contract that is compiled has failed, so one that is not there is missing. -/
theorem exists_missing (r : ContractRun s loader) {locale : String} (hlocale : locale ∈ s.locales)
    (h : sourceOf? loader r.file locale = none) : ∃ path, loader locale r.file = .missing path := by
  have hloaded := (loadFile_eq_ok_iff.mp r.loaded).1 locale hlocale
  unfold sourceOf? at h
  cases hload : loader locale r.file with
  | found path tree => simp [hload] at h
  | missing path => exact ⟨path, rfl⟩
  | failed path cause => exact absurd hload (hloaded path cause)

theorem missingSource_mem_reported_iff (r : ContractRun s loader) {c locale file path : String} :
    .missingSource c locale file path ∈ r.reported ↔
      c = r.contract.name ∧ file = r.file ∧ locale ∈ s.locales ∧ loader locale r.file = .missing path := by
  -- Only the loading of sources gives this issue.
  have hissues : .missingSource c locale file path ∉ r.issues := fun h => r.rule_of_mem_issues h rfl
  simp only [reported, List.mem_append, hissues, or_false, missingIssues, r.sources_missing, List.mem_map,
    List.mem_filterMap, missingOf?]
  refine ⟨fun h => ?_, fun h => ?_⟩
  · obtain ⟨m, ⟨l, hl, hm⟩, heq⟩ := h
    obtain ⟨rfl, rfl, rfl, rfl⟩ := Issue.missingSource.inj heq
    split at hm
    · rename_i path hload
      obtain rfl := Option.some.inj hm
      exact ⟨rfl, rfl, hl, hload⟩
    · cases hm
  · obtain ⟨rfl, rfl, hlocale, hload⟩ := h
    refine ⟨(locale, path), ⟨locale, hlocale, ?_⟩, rfl⟩
    rw [hload]

end ContractRun

variable {runs : List (ContractRun s loader)} {r : ContractRun s loader}

/-- A source is reported as missing, for one of the contracts of its file, exactly when there is none. -/
theorem exists_missingSource_iff (hr : r ∈ runs) {locale : String} (hlocale : locale ∈ s.locales) :
    (∃ c path, .missingSource c locale r.file path ∈ (outputOf runs).issues) ↔
      sourceOf? loader r.file locale = none := by
  refine ⟨fun h => ?_, fun h => ?_⟩
  · obtain ⟨c, path, hmem⟩ := h
    obtain ⟨x, hx, hissue⟩ := exists_of_mem_issuesTogether hmem
    obtain ⟨r', -, rfl⟩ := List.mem_map.mp hx
    obtain ⟨-, hfile, -, hload⟩ := r'.missingSource_mem_reported_iff.mp hissue
    rw [hfile, sourceOf?, hload]
  · -- The first contract of the file has told it.
    have hfile : r.file ∈ (runs.map fun r => (r.file, r.reported)).map (·.1) := by
      rw [List.map_map]
      exact List.mem_map_of_mem hr
    obtain ⟨x, hx, hsame, hsub⟩ := exists_first_subset List.not_mem_nil hfile
    obtain ⟨first, -, rfl⟩ := List.mem_map.mp hx
    obtain ⟨path, hload⟩ := r.exists_missing hlocale h
    have hsame : first.file = r.file := hsame
    refine ⟨first.contract.name, path, hsub ?_⟩
    exact first.missingSource_mem_reported_iff.mpr ⟨rfl, hsame.symm, hlocale, hsame ▸ hload⟩

/-! ## §2 Missing keys -/

namespace ContractRun

theorem contains_schemas (r : ContractRun s loader) {key : String} {a : Accessor}
    (ha : r.table.accessors.get? key = some a) : r.resolution.schemas.contains key = true := by
  rw [r.get?_accessors, Option.map_eq_some_iff] at ha
  obtain ⟨schema, hschema, -⟩ := ha
  exact KeyMap.contains_iff.mpr ⟨schema, hschema⟩

/-- The phrases of a locale are found among those of the file. -/
theorem find?_entries (r : ContractRun s loader) {locale : String} (hlocale : locale ∈ s.locales) :
    (r.sources.entries.find? fun l => l.locale == locale) = sourceOf? loader r.file locale := by
  -- Each locale has one source at most, so the first one of this locale is the only one.
  cases hfind : r.sources.entries.find? fun l => l.locale == locale with
  | some l =>
    have hname : l.locale = locale := by simpa using List.find?_some hfind
    obtain ⟨-, hsource⟩ := r.mem_entries_iff.mp (List.mem_of_find?_eq_some hfind)
    rw [← hname, hsource]
  | none =>
    cases hsource : sourceOf? loader r.file locale with
    | none => rfl
    | some l =>
      obtain rfl := locale_of_sourceOf? hsource
      have hother := List.find?_eq_none.mp hfind l (r.mem_entries_iff.mpr ⟨hlocale, hsource⟩)
      simp at hother

theorem definedIn_eq (r : ContractRun s loader) (key : String) :
    Assembly.definedIn key r.sources.entries = s.locales.filter fun l => (phraseAt? loader r.file key l).isSome := by
  rw [Assembly.definedIn, r.templatesOf_eq, map_filterMap_eq_filter]
  · simp only [Option.isSome_map]
  · intro locale x hx
    obtain ⟨template, -, rfl⟩ := Option.map_eq_some_iff.mp hx
    rfl

end ContractRun

theorem leaf?_eq_none_iff {file key locale : String} {l : LocaleEntries}
    (hl : sourceOf? loader file locale = some l) : l.leaf? key = none ↔ phraseAt? loader file key locale = none := by
  simp [phraseAt?, hl]

section

variable (hnames : (runs.map fun r => r.contract.name).Nodup) (hr : r ∈ runs) {key : String} {a : Accessor}
  (ha : r.table.accessors.get? key = some a)

include hnames hr ha

/-- A translation is reported as missing exactly when there is a source without the key. -/
theorem exists_missingTranslation_iff {locale : String} (hlocale : locale ∈ s.locales)
    (hother : locale ≠ s.defaultLocale) :
    (∃ path, .missingTranslation r.contract.name key locale path ∈ (outputOf runs).issues) ↔
      sourceOf? loader r.file locale ≠ none ∧ phraseAt? loader r.file key locale = none := by
  -- The issue is none of a source, so it is not left out for a file that was seen.
  have hreported : ∀ path, .missingTranslation r.contract.name key locale path ∈ (outputOf runs).issues ↔
      .missingTranslation r.contract.name key locale path ∈ r.assembly.issues := fun path =>
    mem_issues_outputOf_iff hnames hr (by simp [Issue.rule]) rfl
  simp only [hreported, ContractRun.assembly, Assembly.missingTranslation_mem_iff, r.contains_schemas ha, true_and]
  refine ⟨fun h => ?_, fun h => ?_⟩
  · obtain ⟨path, -, l, hl, rfl, -, hleaf⟩ := h
    obtain ⟨-, hsource⟩ := r.mem_entries_iff.mp hl
    exact ⟨by simp [hsource], (leaf?_eq_none_iff hsource).mp hleaf⟩
  · obtain ⟨hsome, hphrase⟩ := h
    obtain ⟨l, hsource⟩ := Option.ne_none_iff_exists'.mp hsome
    obtain rfl := locale_of_sourceOf? hsource
    refine ⟨l.path, hother, l, r.mem_entries_iff.mpr ⟨hlocale, hsource⟩, rfl, rfl, ?_⟩
    exact (leaf?_eq_none_iff hsource).mpr hphrase

/-- A template is reported as missing exactly when no locale has a text. -/
theorem exists_missingTemplate_iff :
    (∃ file, .missingTemplate r.contract.name file key ∈ (outputOf runs).issues) ↔
      ∀ locale ∈ s.locales, phraseAt? loader r.file key locale = none := by
  have hreported : ∀ file, .missingTemplate r.contract.name file key ∈ (outputOf runs).issues ↔
      .missingTemplate r.contract.name file key ∈ r.assembly.issues := fun file =>
    mem_issues_outputOf_iff hnames hr (by simp [Issue.rule]) rfl
  simp only [hreported, ContractRun.assembly, Assembly.missingTemplate_mem_iff, r.contains_schemas ha, true_and,
    ← Assembly.definedIn_eq_nil_iff, r.definedIn_eq]
  simp

/-- A default is reported as missing, with the locales that have the key, exactly when the default locale has a source
without it. -/
theorem missingDefault_mem_outputOf_iff (hdefault : s.defaultLocale ∈ s.locales) {path d : String}
    {names : List String} :
    .missingDefault r.contract.name path key d names ∈ (outputOf runs).issues ↔
      (d = s.defaultLocale ∧ names = s.locales.filter fun l => (phraseAt? loader r.file key l).isSome) ∧ names ≠ [] ∧
        phraseAt? loader r.file key s.defaultLocale = none ∧
        ∃ l, sourceOf? loader r.file s.defaultLocale = some l ∧ l.path = path := by
  rw [mem_issues_outputOf_iff hnames hr (by simp [Issue.rule]) rfl, ContractRun.assembly,
    Assembly.missingDefault_mem_iff]
  simp only [r.contains_schemas ha, true_and, r.definedIn_eq, r.find?_entries hdefault]
  refine ⟨fun h => ?_, fun h => ?_⟩
  · obtain ⟨⟨rfl, rfl⟩, hsome, l, hsource, hpath, hleaf⟩ := h
    exact ⟨⟨rfl, rfl⟩, hsome, (leaf?_eq_none_iff hsource).mp hleaf, l, hsource, hpath⟩
  · obtain ⟨⟨rfl, rfl⟩, hsome, hphrase, l, hsource, hpath⟩ := h
    exact ⟨⟨rfl, rfl⟩, hsome, l, hsource, hpath, (leaf?_eq_none_iff hsource).mpr hphrase⟩

end

/-! ## §3 What stands in -/

namespace ContractRun

variable {key : String} {a : Accessor}

/-- A locale selects its own text exactly when it has one. -/
theorem exists_own_iff (r : ContractRun s loader) (hdefault : s.defaultLocale ∈ s.locales)
    (ha : r.table.accessors.get? key = some a) {locale : String} (hlocale : locale ∈ s.locales) :
    (∃ text, phraseAt? loader r.file key locale = some text ∧ a.select locale = some ⟨text⟩) ↔
      phraseAt? loader r.file key locale ≠ none := by
  rw [Option.ne_none_iff_exists']
  exact exists_congr fun text => and_iff_left_of_imp (r.select_of_phrase hdefault ha hlocale)

/-- Nothing stands in exactly when no locale has a text. -/
theorem fallback_eq_none_iff (r : ContractRun s loader) (hdefault : s.defaultLocale ∈ s.locales)
    (ha : r.table.accessors.get? key = some a) :
    a.fallback = none ↔ ∀ locale ∈ s.locales, phraseAt? loader r.file key locale = none := by
  rw [r.fallback_eq hdefault ha, List.findSome?_eq_none_iff]
  simp only [Option.map_eq_none_iff, List.forall_mem_cons]
  exact and_iff_right_of_imp fun h => h _ hdefault

/-- Without a text in the default locale, the first locale that has one stands in. -/
theorem exists_fallback (r : ContractRun s loader) (hdefault : s.defaultLocale ∈ s.locales)
    (ha : r.table.accessors.get? key = some a) (hphrase : phraseAt? loader r.file key s.defaultLocale = none)
    (hsome : (s.locales.filter fun l => (phraseAt? loader r.file key l).isSome) ≠ []) :
    ∃ first rest text, (s.locales.filter fun l => (phraseAt? loader r.file key l).isSome) = first :: rest ∧
      phraseAt? loader r.file key first = some text ∧ a.fallback = some ⟨first, ⟨text⟩⟩ := by
  obtain ⟨first, rest, hnames⟩ := List.exists_cons_of_ne_nil hsome
  obtain ⟨before, behind, hlocales, hbefore, hfirst, -⟩ := List.filter_eq_cons_iff.mp hnames
  obtain ⟨text, htext⟩ := Option.isSome_iff_exists.mp hfirst
  refine ⟨first, rest, text, hnames, htext, ?_⟩
  -- The locales in front of the first one have no text.
  have hnone : (before.findSome? fun l => (phraseAt? loader r.file key l).map fun text => (⟨l, ⟨text⟩⟩ : Branch))
      = none := by
    rw [List.findSome?_eq_none_iff]
    intro l hl
    simpa using hbefore l hl
  rw [r.fallback_eq hdefault ha, List.findSome?_cons, hphrase, hlocales, List.findSome?_append, hnone,
    List.findSome?_cons, htext]
  rfl

/-- What stands in is selected by each locale without a text. -/
theorem select_eq_fallback (r : ContractRun s loader) (ha : r.table.accessors.get? key = some a) {locale : String}
    (hlocale : locale ∈ s.locales) (hphrase : phraseAt? loader r.file key locale = none) :
    a.select locale = a.fallback.map (·.template) := by
  rw [r.get?_accessors, Option.map_eq_some_iff] at ha
  obtain ⟨schema, -, rfl⟩ := ha
  rw [Table.select_accessorOf key _ hlocale, ← Table.map_fallbackOf, r.get?_templates, if_pos hlocale, hphrase]
  rfl

end ContractRun

/-! ## §4 All keys -/

/-- What is reported of a key of a table agrees with what the key is rendered with. -/
structure GapsReported (s : Settings) (loader : SourceLoader) (issues : List Issue) (contract file : String)
    (t : Table) (key : String) (a : Accessor) : Prop where
  /-- A locale renders its own text unless it is reported that the text or the source is missing. -/
  ownText : ∀ locale ∈ s.locales, locale ≠ s.defaultLocale →
    ((∃ text, phraseAt? loader file key locale = some text ∧ a.select locale = some ⟨text⟩) ↔
      (∀ path, .missingTranslation contract key locale path ∉ issues) ∧
        ∀ contract' path, .missingSource contract' locale file path ∉ issues)
  rendersTemplate : ∀ locale ∈ s.locales, ∀ template, a.select locale = some template → ∀ properties,
    (∀ args values, a.checkArguments args = .ok values →
        t.render key locale args properties = .ok (template.render (a.resolve values properties))) ∧
      ∀ named values, a.namedArguments named = .ok values →
        t.renderByName key locale named properties = .ok (template.render (a.resolve values properties))
  noTemplate : (∃ file', .missingTemplate contract file' key ∈ issues) ↔ a.fallback = none
  rendersKey : a.fallback = none → ∀ locale ∈ s.locales, ∀ properties,
    (∀ args values, a.checkArguments args = .ok values → t.render key locale args properties = .ok key) ∧
      ∀ named values, a.namedArguments named = .ok values → t.renderByName key locale named properties = .ok key
  noDefault : (∃ path d names, .missingDefault contract path key d names ∈ issues) ↔
    (∃ path tree, loader s.defaultLocale file = .found path tree) ∧
      phraseAt? loader file key s.defaultLocale = none ∧
        ∃ locale ∈ s.locales, locale ≠ s.defaultLocale ∧
          phraseAt? loader file key locale ≠ none
  /-- The locale that is told is the one that stands in for all that lack the key. -/
  hint : ∀ path d names, .missingDefault contract path key d names ∈ issues →
    ∃ first rest text, names = first :: rest ∧
      (Issue.missingDefault contract path key d names).hint = some ("other locales fall back to " ++ first) ∧
      phraseAt? loader file key first = some text ∧ a.fallback = some ⟨first, ⟨text⟩⟩ ∧
      ∀ locale ∈ s.locales, phraseAt? loader file key locale = none →
        a.select locale = some ⟨text⟩

theorem exists_sourceOf?_iff {file locale : String} :
    (∃ l, sourceOf? loader file locale = some l) ↔ ∃ path tree, loader locale file = .found path tree := by
  unfold sourceOf?
  cases loader locale file with
  | found path tree => simp
  | missing path => simp
  | failed path cause => simp

theorem gapsReported_outputOf (hnames : (runs.map fun r => r.contract.name).Nodup)
    (hdefault : s.defaultLocale ∈ s.locales) (hr : r ∈ runs) {key : String} {a : Accessor}
    (ha : r.table.accessors.get? key = some a) :
    GapsReported s loader (outputOf runs).issues r.contract.name r.file r.table key a where
  ownText := by
    intro locale hlocale hother
    have htranslation := exists_missingTranslation_iff hnames hr ha hlocale hother
    have hsource := exists_missingSource_iff hr hlocale
    simp only [← not_exists, htranslation, hsource]
    -- A locale without a text either has a source that lacks the key or has no source.
    refine (r.exists_own_iff hdefault ha hlocale).trans ⟨fun h => ?_, fun h hnone => ?_⟩
    · refine ⟨fun hmissing => h hmissing.2, fun hnone => h ?_⟩
      simp [phraseAt?, hnone]
    · exact h.1 ⟨h.2, hnone⟩
  rendersTemplate := fun locale hlocale template hselect => r.render_of_select ha hlocale hselect
  noTemplate := by
    rw [exists_missingTemplate_iff hnames hr ha, r.fallback_eq_none_iff hdefault ha]
  rendersKey := by
    intro hnone locale hlocale properties
    have hphrase := (r.fallback_eq_none_iff hdefault ha).mp hnone locale hlocale
    have hselect : a.select locale = none := by
      rw [r.select_eq_fallback ha hlocale hphrase, hnone]
      rfl
    exact r.render_eq_key ha hlocale hselect properties
  noDefault := by
    simp only [missingDefault_mem_outputOf_iff hnames hr ha hdefault]
    rw [← exists_sourceOf?_iff]
    refine ⟨fun h => ?_, fun h => ?_⟩
    · obtain ⟨path, d, names, ⟨-, rfl⟩, hsome, hphrase, l, hsource, -⟩ := h
      obtain ⟨locale, hmem⟩ := List.exists_mem_of_ne_nil _ hsome
      obtain ⟨hlocale, htext⟩ := List.mem_filter.mp hmem
      refine ⟨⟨l, hsource⟩, hphrase, locale, hlocale, ?_, Option.isSome_iff_ne_none.mp htext⟩
      -- The locale that has the key is not the default one, which lacks it.
      rintro rfl
      rw [hphrase] at htext
      cases htext
    · obtain ⟨⟨l, hsource⟩, hphrase, locale, hlocale, -, hsome⟩ := h
      refine ⟨l.path, _, _, ⟨rfl, rfl⟩, ?_, hphrase, l, hsource, rfl⟩
      exact List.ne_nil_of_mem (List.mem_filter.mpr ⟨hlocale, Option.isSome_iff_ne_none.mpr hsome⟩)
  hint := by
    intro path d names hmem
    obtain ⟨⟨rfl, rfl⟩, hsome, hphrase, -⟩ := (missingDefault_mem_outputOf_iff hnames hr ha hdefault).mp hmem
    obtain ⟨first, rest, text, hlist, htext, hfallback⟩ := r.exists_fallback hdefault ha hphrase hsome
    refine ⟨first, rest, text, hlist, ?_, htext, hfallback, fun locale hlocale hnone => ?_⟩
    · rw [hlist]
      rfl
    · rw [r.select_eq_fallback ha hlocale hnone, hfallback]
      rfl

/-- **Gaps**: what a compilation reports as missing of a key is what the accessor of the key does without. -/
theorem compile_reports_gaps {s : Settings} {cs : List Contract} {loader : SourceLoader} {o : CompileOutput}
    (h : compile s cs loader = .ok o) :
    List.Forall₂ (fun c t => ∀ key a, t.accessors.get? key = some a →
      GapsReported s loader o.issues c.name (c.fileName s.package) t key a) cs o.tables := by
  have hvalid := validate_of_compile h
  have hdefault := (Settings.validate_eq_ok_iff.mp hvalid).1
  obtain ⟨runs, rfl, rfl, hnames⟩ := exists_outputOf h
  show List.Forall₂ _ (runs.map (·.contract)) (runs.map (·.table))
  rw [forall₂_map_same_iff]
  intro r hr key a ha
  exact gapsReported_outputOf hnames hdefault hr ha

/-- The locale that is told with a missing default is the one whose text a locale without a source gets. -/
theorem compile_reports_gaps_farewell :
    ∃ o, compile Greetings.settings [Greetings.contract] Greetings.sources = .ok o ∧
      .missingDefault "app.Greetings" "de_de/greetings.yaml" "farewell" "de-DE" ["en-US"] ∈ o.issues ∧
      ∃ t a, o.tables = [t] ∧ t.accessors.get? "farewell" = some a ∧ a.select "fr-FR" = some ⟨"Bye {guest}"⟩ := by
  obtain ⟨o, ho, hissue, hkey⟩ : ∃ o,
      compile Greetings.settings [Greetings.contract] Greetings.sources = .ok o ∧
        .missingDefault "app.Greetings" "de_de/greetings.yaml" "farewell" "de-DE" ["en-US"] ∈ o.issues ∧
        ∀ t, o.tables = [t] → t.accessors.contains "farewell" = true := ⟨_, rfl, by decide, by
    intro t ht
    obtain rfl := (List.cons.inj ht).1
    decide⟩
  obtain ⟨t, htables, hreported⟩ := exists_of_forall₂_singleton (compile_reports_gaps ho)
  obtain ⟨a, ha⟩ := KeyMap.contains_iff.mp (hkey t htables)
  obtain ⟨first, rest, text, hnames, -, htext, -, hselect⟩ := (hreported "farewell" a ha).hint _ _ _ hissue
  obtain ⟨rfl, rfl⟩ := List.cons.inj hnames
  obtain rfl : "Bye {guest}" = text := Option.some.inj htext
  exact ⟨o, ho, hissue, t, a, htables, ha, hselect "fr-FR" (by decide) rfl⟩

end Compile

end Phrasebook
