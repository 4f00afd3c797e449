import Phrasebook.Catalog.Assembly
import Phrasebook.Proofs.KeyMap
import Phrasebook.Proofs.Template

/-!
# What an assembly reports

An assembly looks at each key in each locale, and then at the key as a whole. Which issues come of that is said for
each kind of issue, without the order in which they are found.

- `mem_issues_iff`: an issue is one of a key of the schemas.
- `missingTranslation_mem_iff`: issues of a key in one locale.
- `missingTemplate_mem_iff`, `missingDefault_mem_iff`: issues of a key as a whole.
- `countP_issues`: an unknown placeholder of a text is reported once.
-/

namespace Phrasebook

/-- Where issues are collected from several things, those of one thing are looked for there only. -/
theorem filter_flatMap_of_nodup {α β γ : Type} {l : List α} {f : α → γ} {g : α → List β} {q : β → Bool} {a : α}
    (hnodup : (l.map f).Nodup) (ha : a ∈ l) (hq : ∀ b ∈ l, ∀ x ∈ g b, q x = true → f b = f a) :
    (l.flatMap g).filter q = (g a).filter q := by
  induction l with
  | nil => cases ha
  | cons b l ih =>
    rw [List.map_cons, List.nodup_cons] at hnodup
    rw [List.flatMap_cons, List.filter_append]
    rcases List.mem_cons.mp ha with rfl | hrest
    · -- Nothing behind `a` has what is looked for.
      have hbehind : (l.flatMap g).filter q = [] := by
        apply List.filter_eq_nil_iff.mpr
        intro x hx hqx
        obtain ⟨b, hb, hxb⟩ := List.mem_flatMap.mp hx
        exact hnodup.1 (hq b (List.mem_cons_of_mem _ hb) x hxb hqx ▸ List.mem_map_of_mem hb)
      rw [hbehind, List.append_nil]
    · have hhead : (g b).filter q = [] := by
        apply List.filter_eq_nil_iff.mpr
        intro x hx hqx
        exact hnodup.1 (hq b List.mem_cons_self x hx hqx ▸ List.mem_map_of_mem hrest)
      rw [hhead, List.nil_append]
      exact ih hnodup.2 hrest fun c hc => hq c (List.mem_cons_of_mem _ hc)

/-- The contract that an issue was found in. -/
def Issue.contract? : Issue → Option String
  | .missingSource contract .. => some contract
  | .missingDefault contract .. => some contract
  | .missingTranslation contract .. => some contract
  | .missingTemplate contract .. => some contract
  | .shadowedTag contract .. => some contract
  | .unknownPlaceholder contract .. => some contract
  | .buildFailure .. => none

/-- Whether an issue is that of an unknown placeholder, in whichever source. -/
def Issue.isUnknownPlaceholder (contract key locale placeholder : String) : Issue → Bool
  | .unknownPlaceholder c k l _ p => c = contract ∧ k = key ∧ l = locale ∧ p = placeholder
  | _ => false

theorem Issue.isUnknownPlaceholder_iff {contract key locale placeholder : String} {i : Issue} :
    i.isUnknownPlaceholder contract key locale placeholder = true ↔
      ∃ path, i = .unknownPlaceholder contract key locale path placeholder := by
  cases i with
  | unknownPlaceholder c k l path p =>
    simp only [isUnknownPlaceholder, decide_eq_true_eq, Issue.unknownPlaceholder.injEq]
    refine ⟨fun h => ?_, fun h => ?_⟩
    · obtain ⟨rfl, rfl, rfl, rfl⟩ := h
      exact ⟨path, rfl, rfl, rfl, rfl, rfl⟩
    · obtain ⟨-, rfl, rfl, rfl, -, rfl⟩ := h
      exact ⟨rfl, rfl, rfl, rfl⟩
  | _ => simp [isUnknownPlaceholder]

namespace Assembly

variable {ctx : AssemblyContext} {schemas : KeyMap KeySchema} {locales : List LocaleEntries}

/-! ## §1 Locales that have a key -/

/-- The locales that have a key, in their order. -/
def definedIn (key : String) (locales : List LocaleEntries) : List String := (templatesOf key locales).map (·.1)

theorem definedIn_eq_nil_iff {key : String} :
    definedIn key locales = [] ↔ ∀ l ∈ locales, l.leaf? key = none := by
  simp [definedIn, templatesOf]

/-! ## §2 One key -/

/-- In one locale, a key is reported as missing or with placeholders. -/
theorem missingTranslation_mem_localeIssues_iff {key : String} {ps : ParameterList} {l : LocaleEntries}
    {c k locale path : String} :
    .missingTranslation c k locale path ∈ localeIssues ctx key ps l ↔
      (c = ctx.contract ∧ k = key ∧ locale = l.locale ∧ path = l.path) ∧ l.leaf? key = none ∧
        l.locale ≠ ctx.defaultLocale := by
  unfold localeIssues
  cases hleaf : l.leaf? key with
  | some leaf => simp
  | none =>
    by_cases hdefault : l.locale = ctx.defaultLocale
    · simp [hdefault]
    · simp [hdefault]

theorem unknownPlaceholder_mem_localeIssues_iff {key : String} {ps : ParameterList} {l : LocaleEntries}
    {c k locale path p : String} :
    .unknownPlaceholder c k locale path p ∈ localeIssues ctx key ps l ↔
      (c = ctx.contract ∧ k = key ∧ locale = l.locale ∧ path = l.path) ∧
        ∃ leaf, l.leaf? key = some leaf ∧ p ∈ unknownPlaceholders ctx.properties ps ⟨leaf.text⟩ := by
  unfold localeIssues
  -- Without a text there is at most a missing translation, which is an issue of another kind.
  cases hleaf : l.leaf? key with
  | none =>
    by_cases hdefault : l.locale = ctx.defaultLocale
    · simp [hdefault]
    · simp [hdefault]
  | some leaf =>
    simp only [List.mem_map, Issue.unknownPlaceholder.injEq, Option.some.injEq, exists_eq_left']
    refine ⟨fun h => ?_, fun h => ?_⟩
    · obtain ⟨p', hp, rfl, rfl, rfl, rfl, rfl⟩ := h
      exact ⟨⟨rfl, rfl, rfl, rfl⟩, hp⟩
    · obtain ⟨⟨rfl, rfl, rfl, rfl⟩, hp⟩ := h
      exact ⟨p, hp, rfl, rfl, rfl, rfl, rfl⟩

/-- What is reported of a key in one locale is a missing translation or an unknown placeholder. -/
theorem rule_of_mem_localeIssues {key : String} {ps : ParameterList} {l : LocaleEntries} {i : Issue}
    (h : i ∈ localeIssues ctx key ps l) : i.rule = .missingTranslation ∨ i.rule = .unknownPlaceholder := by
  unfold localeIssues at h
  cases hleaf : l.leaf? key with
  | none =>
    by_cases hdefault : l.locale = ctx.defaultLocale
    · simp [hleaf, hdefault] at h
    · simp only [hleaf, hdefault, ↓reduceIte, List.mem_singleton] at h
      exact .inl (h ▸ rfl)
  | some leaf =>
    simp only [hleaf, List.mem_map] at h
    obtain ⟨p, -, rfl⟩ := h
    exact .inr rfl

/-- A key as a whole has one issue at most: no locale has it, or the default locale lacks it. -/
theorem mem_gapIssues_iff {key : String} {i : Issue} :
    i ∈ gapIssues ctx key locales (definedIn key locales) ↔
      (definedIn key locales = [] ∧ i = .missingTemplate ctx.contract ctx.fileName key) ∨
        (definedIn key locales ≠ [] ∧ ∃ l, (locales.find? fun l => l.locale == ctx.defaultLocale) = some l ∧
          l.leaf? key = none ∧
          i = .missingDefault ctx.contract l.path key ctx.defaultLocale (definedIn key locales)) := by
  unfold gapIssues
  by_cases hnone : definedIn key locales = []
  · simp [hnone]
  · have hempty : (definedIn key locales).isEmpty = false := by simpa using hnone
    simp only [hempty, Bool.false_eq_true, ↓reduceIte, hnone, false_and, ne_eq, not_false_eq_true, true_and,
      false_or]
    -- Without a source of the default locale, there is no file to blame.
    cases hfind : locales.find? fun l => l.locale == ctx.defaultLocale with
    | none => simp
    | some l =>
      have hhas : l.has key = (l.leaf? key).isSome := rfl
      cases hleaf : l.leaf? key with
      | none => simp [hhas, hleaf]
      | some leaf => simp [hhas, hleaf]

/-! ## §3 All keys -/

theorem mem_issues_iff {i : Issue} :
    i ∈ (assemble ctx schemas locales).issues ↔
      ∃ key schema, schemas.get? key = some schema ∧
        ((∃ l ∈ locales, i ∈ localeIssues ctx key schema.parameters l) ∨
          i ∈ gapIssues ctx key locales (definedIn key locales)) := by
  unfold assemble keyIssues
  simp only [List.mem_flatMap, List.mem_append, Prod.exists, KeyMap.mem_entries_iff]
  rfl

/-- A kind of issue that comes of one locale only is looked for in the locales. -/
private theorem mem_issues_iff_of_locale {i : Issue}
    (hrule : i.rule = .missingTranslation ∨ i.rule = .unknownPlaceholder) :
    i ∈ (assemble ctx schemas locales).issues ↔
      ∃ key schema, schemas.get? key = some schema ∧ ∃ l ∈ locales, i ∈ localeIssues ctx key schema.parameters l := by
  rw [mem_issues_iff]
  have hgap : ∀ key, i ∉ gapIssues ctx key locales (definedIn key locales) := by
    intro key hmem
    rcases mem_gapIssues_iff.mp hmem with ⟨-, rfl⟩ | ⟨-, l, -, -, rfl⟩
    · simp [Issue.rule] at hrule
    · simp [Issue.rule] at hrule
  simp only [hgap, or_false]

/-- A kind of issue that comes of a key as a whole is looked for in its gaps. -/
private theorem mem_issues_iff_of_gap {i : Issue}
    (hrule : i.rule = .missingTemplate ∨ i.rule = .missingDefault) :
    i ∈ (assemble ctx schemas locales).issues ↔
      ∃ key schema, schemas.get? key = some schema ∧ i ∈ gapIssues ctx key locales (definedIn key locales) := by
  rw [mem_issues_iff]
  have hlocale : ∀ key schema, ¬ ∃ l ∈ locales, i ∈ localeIssues ctx key schema l := by
    intro key schema hmem
    obtain ⟨l, -, hmem⟩ := hmem
    rcases rule_of_mem_localeIssues hmem with h | h
    · simp [h] at hrule
    · simp [h] at hrule
  simp only [hlocale, false_or]

theorem missingTranslation_mem_iff {c k locale path : String} :
    .missingTranslation c k locale path ∈ (assemble ctx schemas locales).issues ↔
      c = ctx.contract ∧ schemas.contains k = true ∧ locale ≠ ctx.defaultLocale ∧
        ∃ l ∈ locales, l.locale = locale ∧ l.path = path ∧ l.leaf? k = none := by
  rw [mem_issues_iff_of_locale (.inl rfl), KeyMap.contains_iff]
  simp only [missingTranslation_mem_localeIssues_iff]
  refine ⟨fun h => ?_, fun h => ?_⟩
  · obtain ⟨key, schema, hschema, l, hl, ⟨rfl, rfl, rfl, rfl⟩, hleaf, hdefault⟩ := h
    exact ⟨rfl, ⟨schema, hschema⟩, hdefault, l, hl, rfl, rfl, hleaf⟩
  · obtain ⟨rfl, ⟨schema, hschema⟩, hdefault, l, hl, rfl, rfl, hleaf⟩ := h
    exact ⟨k, schema, hschema, l, hl, ⟨rfl, rfl, rfl, rfl⟩, hleaf, hdefault⟩

theorem missingTemplate_mem_iff {c file k : String} :
    .missingTemplate c file k ∈ (assemble ctx schemas locales).issues ↔
      c = ctx.contract ∧ file = ctx.fileName ∧ schemas.contains k = true ∧ ∀ l ∈ locales, l.leaf? k = none := by
  rw [mem_issues_iff_of_gap (.inl rfl), KeyMap.contains_iff]
  simp only [mem_gapIssues_iff, Issue.missingTemplate.injEq, reduceCtorEq, and_false, exists_false, or_false,
    definedIn_eq_nil_iff]
  refine ⟨fun h => ?_, fun h => ?_⟩
  · obtain ⟨key, schema, hschema, hnone, rfl, rfl, rfl⟩ := h
    exact ⟨rfl, rfl, ⟨schema, hschema⟩, hnone⟩
  · obtain ⟨rfl, rfl, ⟨schema, hschema⟩, hnone⟩ := h
    exact ⟨k, schema, hschema, hnone, rfl, rfl, rfl⟩

theorem missingDefault_mem_iff {c path k defaultLocale : String} {names : List String} :
    .missingDefault c path k defaultLocale names ∈ (assemble ctx schemas locales).issues ↔
      (c = ctx.contract ∧ defaultLocale = ctx.defaultLocale ∧ names = definedIn k locales) ∧
        schemas.contains k = true ∧ definedIn k locales ≠ [] ∧
          ∃ l, (locales.find? fun l => l.locale == ctx.defaultLocale) = some l ∧ l.path = path ∧
            l.leaf? k = none := by
  rw [mem_issues_iff_of_gap (.inr rfl), KeyMap.contains_iff]
  simp only [mem_gapIssues_iff, Issue.missingDefault.injEq, reduceCtorEq, and_false, false_or]
  refine ⟨fun h => ?_, fun h => ?_⟩
  · obtain ⟨key, schema, hschema, hsome, l, hl, hleaf, rfl, rfl, rfl, rfl, rfl⟩ := h
    exact ⟨⟨rfl, rfl, rfl⟩, ⟨schema, hschema⟩, hsome, l, hl, rfl, hleaf⟩
  · obtain ⟨⟨rfl, rfl, rfl⟩, ⟨schema, hschema⟩, hsome, l, hl, rfl, hleaf⟩ := h
    exact ⟨k, schema, hschema, hsome, l, hl, hleaf, rfl, rfl, rfl, rfl, rfl⟩

/-- An assembly has nothing to say of files, tags and failures. -/
theorem rule_of_mem_issues {i : Issue} (h : i ∈ (assemble ctx schemas locales).issues) :
    i.rule ≠ .missingSource ∧ i.rule ≠ .shadowedTag ∧ i.rule ≠ .buildFailure := by
  obtain ⟨key, schema, -, ⟨l, -, hlocale⟩ | hgap⟩ := mem_issues_iff.mp h
  · rcases rule_of_mem_localeIssues hlocale with hrule | hrule
    · simp [hrule]
    · simp [hrule]
  · rcases mem_gapIssues_iff.mp hgap with ⟨-, rfl⟩ | ⟨-, l, -, -, rfl⟩
    · simp [Issue.rule]
    · simp [Issue.rule]

theorem contract_of_mem_issues {i : Issue} (h : i ∈ (assemble ctx schemas locales).issues) :
    i.contract? = some ctx.contract := by
  obtain ⟨key, schema, -, ⟨l, -, hlocale⟩ | hgap⟩ := mem_issues_iff.mp h
  · cases i with
    | missingTranslation c k locale path =>
      exact congrArg some (missingTranslation_mem_localeIssues_iff.mp hlocale).1.1
    | unknownPlaceholder c k locale path p =>
      exact congrArg some (unknownPlaceholder_mem_localeIssues_iff.mp hlocale).1.1
    | _ => simpa [Issue.rule] using rule_of_mem_localeIssues hlocale
  · rcases mem_gapIssues_iff.mp hgap with ⟨-, rfl⟩ | ⟨-, l, -, -, rfl⟩
    · rfl
    · rfl

/-! ## §4 One text -/

section

variable {key : String} {schema : KeySchema} {l : LocaleEntries}

/-- The unknown placeholders of a key are reported where the key is looked at. -/
private theorem filter_issues (hkey : schemas.get? key = some schema) (locale p : String) :
    (assemble ctx schemas locales).issues.filter (Issue.isUnknownPlaceholder ctx.contract key locale p)
      = (keyIssues ctx locales key schema).filter (Issue.isUnknownPlaceholder ctx.contract key locale p) := by
  refine filter_flatMap_of_nodup (f := Prod.fst) schemas.keys_nodup (KeyMap.mem_entries_iff.mpr hkey) ?_
  intro e _ i hi hreports
  obtain ⟨path, rfl⟩ := Issue.isUnknownPlaceholder_iff.mp hreports
  rcases List.mem_append.mp hi with hlocale | hgap
  · obtain ⟨l', -, hl'⟩ := List.mem_flatMap.mp hlocale
    exact (unknownPlaceholder_mem_localeIssues_iff.mp hl').1.2.1.symm
  · simpa using mem_gapIssues_iff.mp hgap

/-- Of the issues of the key, they are those of the locale. -/
private theorem filter_keyIssues (hlocales : (locales.map (·.locale)).Nodup) (hl : l ∈ locales) (p : String) :
    (keyIssues ctx locales key schema).filter (Issue.isUnknownPlaceholder ctx.contract key l.locale p)
      = (localeIssues ctx key schema.parameters l).filter
          (Issue.isUnknownPlaceholder ctx.contract key l.locale p) := by
  have hgap : (gapIssues ctx key locales (definedIn key locales)).filter
      (Issue.isUnknownPlaceholder ctx.contract key l.locale p) = [] := by
    apply List.filter_eq_nil_iff.mpr
    intro i hi hreports
    obtain ⟨path, rfl⟩ := Issue.isUnknownPlaceholder_iff.mp hreports
    simpa using mem_gapIssues_iff.mp hi
  have hlocale : (locales.flatMap (localeIssues ctx key schema.parameters)).filter
        (Issue.isUnknownPlaceholder ctx.contract key l.locale p)
      = (localeIssues ctx key schema.parameters l).filter
        (Issue.isUnknownPlaceholder ctx.contract key l.locale p) := by
    refine filter_flatMap_of_nodup hlocales hl ?_
    intro l' _ i hi hreports
    obtain ⟨path, rfl⟩ := Issue.isUnknownPlaceholder_iff.mp hreports
    exact (unknownPlaceholder_mem_localeIssues_iff.mp hi).1.2.2.1.symm
  rw [keyIssues, List.filter_append, hlocale]
  show _ ++ (gapIssues ctx key locales (definedIn key locales)).filter _ = _
  rw [hgap, List.append_nil]

/-- An unknown placeholder of the text of a key in a locale is reported once, however often it stands there. -/
theorem countP_issues (ctx : AssemblyContext) {leaf : Leaf} (hkey : schemas.get? key = some schema)
    (hlocales : (locales.map (·.locale)).Nodup) (hl : l ∈ locales) (hleaf : l.leaf? key = some leaf) (p : String) :
    (assemble ctx schemas locales).issues.countP (Issue.isUnknownPlaceholder ctx.contract key l.locale p)
      = if p ∈ unknownPlaceholders ctx.properties schema.parameters ⟨leaf.text⟩ then 1 else 0 := by
  have hunknown : (unknownPlaceholders ctx.properties schema.parameters ⟨leaf.text⟩).Nodup :=
    (Template.placeholders_nodup _).filter _
  -- Among the issues of one key and locale, only the name of the placeholder matters.
  have hreports : (Issue.isUnknownPlaceholder ctx.contract key l.locale p) ∘
        (fun p' => Issue.unknownPlaceholder ctx.contract key l.locale l.path p') = fun p' => p' == p := by
    funext p'
    simp only [Function.comp_apply, Issue.isUnknownPlaceholder, true_and]
    rfl
  rw [List.countP_eq_length_filter, filter_issues hkey, filter_keyIssues hlocales hl,
    ← List.countP_eq_length_filter]
  simp only [localeIssues, hleaf, List.countP_map, hreports]
  exact hunknown.count

end

end Assembly

end Phrasebook
