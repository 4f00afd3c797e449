import Phrasebook.Proofs.Accessor.Filling
import Phrasebook.Proofs.Compile.Issues
import Phrasebook.Proofs.Compile.Selection
import Phrasebook.Proofs.Registry.Run

/-!
# Unknown placeholders are those that nothing fills

A compilation warns of placeholders that are neither parameters nor properties. These are exactly the placeholders
that a provider writes back as they are, whatever it is called with and whatever is in the bag of properties.

- `ContractRun.countP_issues`: how often a compilation warns of a name in a text.
- `compile_reports_unfilled`: it warns once of each placeholder that is never filled, and of nothing else.
-/

namespace Phrasebook

namespace Compile

variable {s : Settings} {loader : SourceLoader}

/-! ## §1 Tables and providers -/

/-- At every point of a run, a contract has a provider with its table and the declared properties. -/
theorem exists_provider_outputOf {runs : List (ContractRun s loader)}
    (hnames : (runs.map fun r => r.contract.name).Nodup) {r : ContractRun s loader} (hr : r ∈ runs)
    (history : List RegistryRequest) :
    ∃ p, (outputOf runs).registry.answerAfter history (.provider r.contract.name) = .provider (.ok p) ∧
      p.table = r.table ∧ p.propertyTypes = s.properties := by
  have hcontracts : ((outputOf runs).tables.map (·.contract)).Nodup := contracts_of_runs runs ▸ hnames
  have htable : (outputOf runs).registry.tables.get? r.contract.name = some r.table :=
    (Registry.get?_tables_ofTables hcontracts).mpr ⟨List.mem_map_of_mem hr, r.table_contract⟩
  obtain ⟨p, hp, hanswer⟩ := Registry.exists_provider_of_get? htable history
  have hout : (outputOf runs).registry.GivenOut (history ++ [.provider r.contract.name]) r.contract.name p :=
    ⟨history, [], rfl, hanswer⟩
  exact ⟨p, hanswer, hp, (Registry.shares_of_givenOut hout).1⟩

/-! ## §2 One text -/

/-- Each locale has one source at most. -/
theorem locales_sources_nodup {file : String} {locales : List String} (h : locales.Nodup) :
    ((locales.filterMap (sourceOf? loader file)).map (·.locale)).Nodup := by
  rw [map_filterMap_eq_filter fun locale l => locale_of_sourceOf?]
  exact h.filter _

namespace ContractRun

/-- A compilation reports a placeholder of a text once when it is neither a parameter nor a property, and no other
name. -/
theorem countP_issues {runs : List (ContractRun s loader)} (hnames : (runs.map fun r => r.contract.name).Nodup)
    (hlocales : s.locales.Nodup) {r : ContractRun s loader} (hr : r ∈ runs) {key locale text : String}
    (hlocale : locale ∈ s.locales) (htext : phraseAt? loader r.file key locale = some text) {a : Accessor}
    (ha : r.table.accessors.get? key = some a) (p : String) :
    (outputOf runs).issues.countP (Issue.isUnknownPlaceholder r.contract.name key locale p)
      = if p ∈ Assembly.unknownPlaceholders s.properties a.schema ⟨text⟩ then 1 else 0 := by
  obtain ⟨l, hsource, hphrase⟩ := Option.bind_eq_some_iff.mp htext
  obtain ⟨leaf, hleaf, rfl⟩ := Option.map_eq_some_iff.mp hphrase
  obtain rfl := locale_of_sourceOf? hsource
  rw [r.get?_accessors, Option.map_eq_some_iff] at ha
  obtain ⟨schema, hschema, rfl⟩ := ha
  have hl : l ∈ r.sources.entries := r.mem_entries_iff.mpr ⟨hlocale, hsource⟩
  have hdistinct : (r.sources.entries.map (·.locale)).Nodup := by
    rw [r.sources_entries]
    exact locales_sources_nodup hlocales
  -- Issues of other contracts, and those of the run itself, are of no placeholder of this one.
  rw [List.countP_eq_length_filter, filter_issues_outputOf hnames hr, ← List.countP_eq_length_filter]
  · exact Assembly.countP_issues ⟨r.contract.name, r.file, s.defaultLocale, s.properties⟩ hschema hdistinct hl hleaf p
  · intro i hreports
    obtain ⟨path, rfl⟩ := Issue.isUnknownPlaceholder_iff.mp hreports
    exact ⟨⟨by simp [Issue.rule], by simp [Issue.rule]⟩, rfl⟩

end ContractRun

/-! ## §3 All texts -/

/-- A placeholder is unknown exactly when nothing fills it. -/
theorem mem_unknownPlaceholders_iff {a : Accessor} {provider : Provider} {text p : String} :
    p ∈ Assembly.unknownPlaceholders provider.propertyTypes a.schema ⟨text⟩ ↔
      .placeholder p ∈ (Template.mk text).segments ∧ a.NeverFilled provider p := by
  rw [Assembly.unknownPlaceholders, List.mem_filter, Template.mem_placeholders_iff, Accessor.neverFilled_iff]
  simp [KeyMap.contains]

/-- **Unknown placeholders**: whenever the provider of a contract is given out, it renders each text of its sources, and
a compilation reports those placeholders of the text, each once, that the provider never fills; it can fill all
others. -/
theorem compile_reports_unfilled {s : Settings} {cs : List Contract} {loader : SourceLoader} {o : CompileOutput}
    (h : compile s cs loader = .ok o) :
    List.Forall₂ (fun c t => ∀ history, ∃ provider,
      o.registry.answerAfter history (.provider c.name) = .provider (.ok provider) ∧ provider.table = t ∧
      ∀ key, ∀ locale ∈ s.locales, ∀ text, phraseAt? loader (c.fileName s.package) key locale = some text →
        ∃ a, t.accessors.get? key = some a ∧
          (∀ bags,
            (∀ args values, a.checkArguments args = .ok values →
              provider.render bags key locale args
                = .ok ((Template.mk text).render (a.resolve values (provider.properties bags)))) ∧
            ∀ named values, a.namedArguments named = .ok values →
              provider.renderByName bags key locale named
                = .ok ((Template.mk text).render (a.resolve values (provider.properties bags)))) ∧
          ∀ p,
            (.placeholder p ∈ (Template.mk text).segments →
              (a.NeverFilled provider p →
                o.issues.countP (Issue.isUnknownPlaceholder c.name key locale p) = 1) ∧
              (a.Fillable provider p →
                o.issues.countP (Issue.isUnknownPlaceholder c.name key locale p) = 0) ∧
              (a.NeverFilled provider p ∨ a.Fillable provider p)) ∧
            (.placeholder p ∉ (Template.mk text).segments →
              o.issues.countP (Issue.isUnknownPlaceholder c.name key locale p) = 0))
      cs o.tables := by
  have hvalid := validate_of_compile h
  have hdefault := (Settings.validate_eq_ok_iff.mp hvalid).1
  obtain ⟨runs, rfl, rfl, hnames⟩ := exists_outputOf h
  show List.Forall₂ _ (runs.map (·.contract)) (runs.map (·.table))
  rw [forall₂_map_same_iff]
  intro r hr history
  obtain ⟨provider, hanswer, htable, htypes⟩ := exists_provider_outputOf hnames hr history
  refine ⟨provider, hanswer, htable, fun key locale hlocale text htext => ?_⟩
  have hkey : r.table.accessors.contains key = true :=
    r.contains_iff_phrase.mpr (.inr ⟨locale, hlocale, Option.isSome_iff_exists.mpr ⟨text, htext⟩⟩)
  obtain ⟨a, ha⟩ := KeyMap.contains_iff.mp hkey
  have hselect := r.select_of_phrase hdefault ha hlocale htext
  refine ⟨a, ha, fun bags => ?_, fun p => ?_⟩
  · simp only [Provider.render, Provider.renderByName, htable]
    exact r.render_of_select ha hlocale hselect _
  -- Of all issues, only the list of unknown placeholders of this key and locale can hold one for `p`.
  have hcount := r.countP_issues hnames (locales_nodup_of_validate hvalid) hr hlocale htext ha p
  have hunknown : p ∈ Assembly.unknownPlaceholders s.properties a.schema ⟨text⟩ ↔
      .placeholder p ∈ (Template.mk text).segments ∧ a.NeverFilled provider p :=
    htypes ▸ mem_unknownPlaceholders_iff
  rw [hcount]
  refine ⟨fun hp => ⟨fun hnever => ?_, fun hfill => ?_, ?_⟩, fun hp => ?_⟩
  · exact if_pos (hunknown.mpr ⟨hp, hnever⟩)
  · apply if_neg
    intro hmem
    exact Accessor.fillable_iff_not_neverFilled.mp hfill (hunknown.mp hmem).2
  · rw [Accessor.fillable_iff_not_neverFilled]
    exact em _
  · exact if_neg fun hmem => hp (hunknown.mp hmem).1

/-- Without the property, its placeholder is never filled. -/
theorem compile_reports_unfilled_brand :
    ∃ o, compile { Greetings.settings with properties := .empty } [Greetings.contract] Greetings.sources = .ok o ∧
      o.issues.countP (Issue.isUnknownPlaceholder "app.Greetings" "greeting" "en-US" "brand") = 1 := by
  obtain ⟨o, ho, hproperties, hschemas⟩ : ∃ o,
      compile { Greetings.settings with properties := .empty } [Greetings.contract] Greetings.sources = .ok o ∧
        o.registry.propertyTypes = .empty ∧
        o.tables.map (fun t => (t.accessors.get? "greeting").map Accessor.schema)
          = [some [⟨"name", .builtin .text false⟩]] := ⟨_, rfl, rfl, rfl⟩
  obtain ⟨t, htables, hreports⟩ := exists_of_forall₂_singleton (compile_reports_unfilled ho)
  obtain ⟨provider, hanswer, -, hall⟩ := hreports []
  have hout : o.registry.GivenOut [.provider "app.Greetings"] "app.Greetings" provider := ⟨[], [], rfl, hanswer⟩
  obtain ⟨a, ha, -, hplaceholders⟩ := hall "greeting" "en-US" (by decide) "Hello {name} of {brand}" rfl
  have hschema : a.schema = [⟨"name", .builtin .text false⟩] := by simpa [htables, ha] using hschemas
  have hnever : a.NeverFilled provider "brand" := by
    rw [Accessor.neverFilled_iff, hschema, (Registry.shares_of_givenOut hout).1, hproperties]
    exact ⟨by decide, rfl⟩
  exact ⟨o, ho, ((hplaceholders "brand").1 (by decide)).1 hnever⟩

end Compile

end Phrasebook
