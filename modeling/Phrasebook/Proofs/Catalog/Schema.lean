import Phrasebook.Catalog.Schema
import Phrasebook.Proofs.KeyMap
import Phrasebook.Proofs.Traverse
import Mathlib.Tactic.ByContra

/-!
# What the resolution of schemas yields

The resolution of a contract is described without the order in which it looks at declarations, tags and keys.

- `DeclarationsAgree`, `TagsReadable` and `UndeclaredTagsAgree` are the conditions of success.
- `schemaOf` is the schema of a key, and `shadowedTag?` what is reported of its tag in one locale.
- `resolve_eq_ok_iff` puts them together: the resolution succeeds under these conditions, with these schemas and
  these reports.
-/

namespace Phrasebook

/-! ## §1 Vocabulary -/

/-- The tag of a key in a locale, unless it is blank. -/
def LocaleEntries.tag? (l : LocaleEntries) (key : String) : Option String :=
  (l.leaf? key).bind Leaf.parameterTag

namespace SchemaResolution

/-- A declaration is one of the key. -/
def Declares (ds : List Declaration) (key : String) : Prop := ∃ d ∈ ds, d.key = key

/-- The key is not empty, and a locale has it. -/
def Sourced (locales : List LocaleEntries) (key : String) : Prop :=
  key ≠ "" ∧ ∃ l ∈ locales, l.has key = true

/-- The tag of a key in a locale spells parameters. -/
def Spells (l : LocaleEntries) (key : String) (ps : ParameterList) : Prop :=
  ∃ raw, l.tag? key = some raw ∧ ParameterList.parse raw = .ok ps

/-- Declarations of one key have the same parameters. -/
def DeclarationsAgree (ds : List Declaration) : Prop :=
  ∀ d ∈ ds, ∀ d' ∈ ds, d.key = d'.key → d.parameters = d'.parameters

/-- The tag of a key in a locale spells parameters, if there is one. -/
def Readable (key : String) (l : LocaleEntries) : Prop :=
  ∀ raw, l.tag? key = some raw → ∃ ps, ParameterList.parse raw = .ok ps

/-- The tags of all keys of sources spell parameters. -/
def TagsReadable (locales : List LocaleEntries) : Prop :=
  ∀ key, Sourced locales key → ∀ l ∈ locales, Readable key l

/-- The tags of a key spell the same parameters in all locales. -/
def TagsAgree (locales : List LocaleEntries) (key : String) : Prop :=
  ∀ l ∈ locales, ∀ l' ∈ locales, ∀ ps ps', Spells l key ps → Spells l' key ps' → ps = ps'

/-- The tags of every key of sources that no declaration is of spell the same parameters. -/
def UndeclaredTagsAgree (ds : List Declaration) (locales : List LocaleEntries) : Prop :=
  ∀ key, ¬ Declares ds key → Sourced locales key → TagsAgree locales key

/-- The first declaration of a key. -/
def declarationOf? (ds : List Declaration) (key : String) : Option Declaration :=
  ds.find? fun d => d.key == key

/-- The tag of a key in a locale with the parameters it spells, if it spells any. -/
def readTag? (key : String) (l : LocaleEntries) : Option KeyTag :=
  (l.tag? key).bind fun raw => (ParameterList.parse raw).toOption.map fun ps => ⟨l.locale, l.path, raw, ps⟩

/-- The schema of a key: that of its declaration, or else that of its first tag. -/
def schemaOf (ds : List Declaration) (locales : List LocaleEntries) (key : String) : KeySchema :=
  match declarationOf? ds key with
  | some d => ⟨d.parameters, true⟩
  | none => ⟨((locales.findSome? (readTag? key)).map (·.parameters)).getD [], false⟩

/-- What is reported of the tag of a key in a locale: a tag that spells other parameters than the declaration. -/
def shadowedTag? (contract : String) (ds : List Declaration) (key : String) (l : LocaleEntries) : Option Issue :=
  (declarationOf? ds key).bind fun d => (readTag? key l).bind fun t =>
    if t.parameters = d.parameters then none
    else some (.shadowedTag contract key l.locale l.path t.raw d.parameters.display)

/-! ## §2 Declared keys -/

theorem declarationOf?_eq_none_iff {ds : List Declaration} {key : String} :
    declarationOf? ds key = none ↔ ¬ Declares ds key := by
  simp [declarationOf?, Declares]

theorem declares_of_declarationOf? {ds : List Declaration} {key : String} {d : Declaration}
    (h : declarationOf? ds key = some d) : d ∈ ds ∧ d.key = key :=
  ⟨List.mem_of_find?_eq_some h, by simpa using List.find?_some h⟩

/-- The declaration of a key among those that were found and those still to come. -/
private def firstOf (found : KeyMap Declaration) (ds : List Declaration) (key : String) : Option Declaration :=
  (found.get? key).or (declarationOf? ds key)

private theorem firstOf_cons_of_new {found : KeyMap Declaration} {d : Declaration} {ds : List Declaration}
    (h : found.get? d.key = none) (key : String) :
    firstOf found (d :: ds) key = firstOf (found.insert d.key d) ds key := by
  simp only [firstOf, declarationOf?, KeyMap.get?_insert]
  by_cases hk : d.key = key
  · subst hk
    simp [h]
  · rw [List.find?_cons_of_neg (by simpa using hk), if_neg (Ne.symm hk)]

private theorem firstOf_cons_of_found {found : KeyMap Declaration} {d first : Declaration}
    {ds : List Declaration} (h : found.get? d.key = some first) (key : String) :
    firstOf found (d :: ds) key = firstOf found ds key := by
  simp only [firstOf, declarationOf?]
  by_cases hk : d.key = key
  · subst hk
    simp [h]
  · rw [List.find?_cons_of_neg (by simpa using hk)]

/-- The collection goes on as if the declarations that were found stood in front of the others. -/
private theorem collectDeclared_eq_ok_iff {contract : String} {found m : KeyMap Declaration}
    {ds : List Declaration} :
    collectDeclared contract found ds = .ok m ↔
      (∀ d ∈ ds, ∀ first, firstOf found ds d.key = some first → first.parameters = d.parameters)
        ∧ ∀ key, m.get? key = firstOf found ds key := by
  induction ds generalizing found with
  | nil =>
    refine ⟨fun h => ?_, fun h => ?_⟩
    · cases h
      simp [firstOf, declarationOf?]
    · obtain ⟨-, hm⟩ := h
      have hfound : found = m := KeyMap.ext_get? fun key => by simp [hm key, firstOf, declarationOf?]
      rw [collectDeclared, hfound]
  | cons d ds ih =>
    rw [collectDeclared, List.forall_mem_cons]
    cases hget : found.get? d.key with
    | none =>
      -- `d` is the first declaration of its key, and is found by those behind it.
      have hself : firstOf found (d :: ds) d.key = some d := by simp [firstOf, declarationOf?, hget]
      simp only [ih, hself, Option.some.injEq, forall_eq', true_and, ← firstOf_cons_of_new hget]
    | some first =>
      -- `d` must have the parameters of the declaration that came first, and changes nothing.
      have hself : firstOf found (d :: ds) d.key = some first := by simp [firstOf, hget]
      simp only [hself, Option.some.injEq, forall_eq']
      by_cases heq : first.parameters = d.parameters
      · simp only [heq, ↓reduceIte, ih, firstOf_cons_of_found hget, true_and]
      · simp [heq]

/-- The declared keys are found exactly when their declarations agree, each with its first declaration. -/
theorem declaredKeys_eq_ok_iff {contract : String} {ds : List Declaration} {m : KeyMap Declaration} :
    declaredKeys contract ds = .ok m ↔ DeclarationsAgree ds ∧ ∀ key, m.get? key = declarationOf? ds key := by
  rw [declaredKeys, collectDeclared_eq_ok_iff]
  simp only [firstOf, KeyMap.get?_empty, Option.none_or]
  refine and_congr_left fun _ => ⟨fun h d hd d' hd' hkey => ?_, fun h d hd first hfirst => ?_⟩
  · -- Both declarations have the parameters of the first one of their key.
    obtain ⟨first, hfirst⟩ : ∃ first, declarationOf? ds d.key = some first :=
      Option.ne_none_iff_exists'.mp fun hnone => declarationOf?_eq_none_iff.mp hnone ⟨d, hd, rfl⟩
    rw [← h d hd first hfirst, h d' hd' first (hkey ▸ hfirst)]
  · obtain ⟨hmem, hkey⟩ := declares_of_declarationOf? hfirst
    exact h first hmem d hd hkey

/-- Declarations that agree have a map of their keys. -/
theorem exists_declaredKeys (contract : String) {ds : List Declaration} (h : DeclarationsAgree ds) :
    ∃ m, declaredKeys contract ds = .ok m := by
  refine ⟨.ofList (ds.map fun d => (d.key, d)).reverse, declaredKeys_eq_ok_iff.mpr ⟨h, fun key => ?_⟩⟩
  rw [KeyMap.get?_ofList, List.reverse_reverse]
  induction ds with
  | nil => rfl
  | cons d ds ih =>
    have htail := ih fun d hd d' hd' => h d (List.mem_cons_of_mem _ hd) d' (List.mem_cons_of_mem _ hd')
    unfold declarationOf? at htail ⊢
    by_cases hk : d.key = key
    · simp [Entries.find?, hk]
    · rw [List.find?_cons_of_neg (by simpa using hk), List.map_cons, Entries.find?, if_neg (Ne.symm hk), htail]

/-! ## §3 Tags of one key -/

theorem spells_iff {l : LocaleEntries} {key : String} {ps : ParameterList} :
    Spells l key ps ↔ ∃ t, readTag? key l = some t ∧ t.parameters = ps := by
  refine ⟨fun h => ?_, fun h => ?_⟩
  · obtain ⟨raw, hraw, hparse⟩ := h
    exact ⟨⟨l.locale, l.path, raw, ps⟩, by simp [readTag?, hraw, hparse, Except.toOption], rfl⟩
  · obtain ⟨t, ht, rfl⟩ := h
    simp only [readTag?, Option.bind_eq_some_iff, Option.map_eq_some_iff] at ht
    obtain ⟨raw, hraw, ps, hps, rfl⟩ := ht
    refine ⟨raw, hraw, ?_⟩
    cases hparse : ParameterList.parse raw with
    | error e => simp [hparse, Except.toOption] at hps
    | ok ps' => simpa [hparse, Except.toOption] using hps

theorem tagIn_eq_ok_iff {key : String} {l : LocaleEntries} {t : Option KeyTag} :
    tagIn key l = .ok t ↔ Readable key l ∧ t = readTag? key l := by
  unfold tagIn Readable readTag? LocaleEntries.tag?
  cases htag : (l.leaf? key).bind Leaf.parameterTag with
  | none => simp [eq_comm]
  | some raw =>
    cases hparse : ParameterList.parse raw with
    | error e => simp [hparse]
    | ok ps => simp [hparse, Except.toOption, eq_comm]

theorem tagsOf_eq_ok_iff {key : String} {locales : List LocaleEntries} {ts : List KeyTag} :
    tagsOf key locales = .ok ts ↔ (∀ l ∈ locales, Readable key l) ∧ ts = locales.filterMap (readTag? key) := by
  have hread : ∀ rs, traverse (tagIn key) locales = .ok rs ↔
      (∀ l ∈ locales, Readable key l) ∧ rs = locales.map (readTag? key) := fun rs =>
    traverse_eq_ok_iff_of_forall fun l t => tagIn_eq_ok_iff
  rw [tagsOf, map_eq_ok_iff_of_forall hread, List.filterMap_map]
  rfl

/-- Tags have common parameters exactly when all of them spell the same, and these are those of the first tag. -/
theorem commonParameters_eq_ok_iff {key : String} {ts : List KeyTag} {ps : ParameterList} :
    commonParameters key ts = .ok ps ↔
      (∀ t ∈ ts, ∀ u ∈ ts, t.parameters = u.parameters) ∧ ps = (ts.head?.map (·.parameters)).getD [] := by
  cases ts with
  | nil => simp [commonParameters, eq_comm]
  | cons t ts =>
    rw [commonParameters]
    -- The code compares with the first tag only, which is enough.
    by_cases hall : ∀ u ∈ ts, u.parameters = t.parameters
    · have hsame : ∀ u ∈ t :: ts, u.parameters = t.parameters := by simpa using hall
      have hif : (ts.all fun u => decide (u.parameters = t.parameters)) = true := by simpa using hall
      simp only [hif, ↓reduceIte, Except.ok.injEq, List.head?_cons, Option.map_some, Option.getD_some]
      refine ⟨fun h => ?_, fun h => h.2.symm⟩
      exact ⟨fun u hu w hw => (hsame u hu).trans (hsame w hw).symm, h.symm⟩
    · have hif : (ts.all fun u => decide (u.parameters = t.parameters)) = false := by simpa using hall
      simp only [hif, Bool.false_eq_true, ↓reduceIte, reduceCtorEq, false_iff, not_and]
      intro hagree
      exact absurd (fun u hu => hagree u (List.mem_cons_of_mem _ hu) t List.mem_cons_self) hall

theorem tagsAgree_iff {locales : List LocaleEntries} {key : String} :
    TagsAgree locales key ↔
      ∀ t ∈ locales.filterMap (readTag? key), ∀ u ∈ locales.filterMap (readTag? key),
        t.parameters = u.parameters := by
  simp only [TagsAgree, spells_iff, List.mem_filterMap]
  refine ⟨fun h t ht u hu => ?_, fun h l hl l' hl' ps ps' hps hps' => ?_⟩
  · obtain ⟨l, hl, ht⟩ := ht
    obtain ⟨l', hl', hu⟩ := hu
    exact h l hl l' hl' _ _ ⟨t, ht, rfl⟩ ⟨u, hu, rfl⟩
  · obtain ⟨t, ht, rfl⟩ := hps
    obtain ⟨u, hu, rfl⟩ := hps'
    exact h t ⟨l, hl, ht⟩ u ⟨l', hl', hu⟩

/-! ## §4 One key -/

/-- The issues of the tags of a declared key are those of its locales, in their order. -/
private theorem shadowed_eq {contract key : String} {ds : List Declaration} {d : Declaration}
    (hd : declarationOf? ds key = some d) (locales : List LocaleEntries) :
    shadowed contract key d (locales.filterMap (readTag? key))
      = locales.filterMap (shadowedTag? contract ds key) := by
  induction locales with
  | nil => rfl
  | cons l ls ih =>
    unfold shadowed at ih ⊢
    cases htag : readTag? key l with
    | none => simpa [htag, shadowedTag?, hd] using ih
    | some t =>
      -- The locale and the path of an issue are those of the tag, which are those of the locale.
      have hplace : t.locale = l.locale ∧ t.path = l.path := by
        simp only [readTag?, Option.bind_eq_some_iff, Option.map_eq_some_iff] at htag
        obtain ⟨raw, -, ps, -, rfl⟩ := htag
        exact ⟨rfl, rfl⟩
      by_cases heq : t.parameters = d.parameters
      · simpa [htag, shadowedTag?, hd, heq] using ih
      · simpa [htag, shadowedTag?, hd, heq, hplace] using ih

private theorem shadowedTag?_of_undeclared {contract key : String} {ds : List Declaration}
    (hd : declarationOf? ds key = none) (locales : List LocaleEntries) :
    locales.filterMap (shadowedTag? contract ds key) = [] := by
  simp [shadowedTag?, hd]

/-- A key resolves exactly when its tags can be read, and agree where it is not declared. -/
theorem resolveKey_eq_ok_iff {contract key : String} {ds : List Declaration} {declared : KeyMap Declaration}
    {locales : List LocaleEntries} {x : (String × KeySchema) × List Issue}
    (hdeclared : ∀ key, declared.get? key = declarationOf? ds key) :
    resolveKey contract declared locales key = .ok x ↔
      ((∀ l ∈ locales, Readable key l) ∧ (¬ Declares ds key → TagsAgree locales key)) ∧
        x = ((key, schemaOf ds locales key), locales.filterMap (shadowedTag? contract ds key)) := by
  unfold resolveKey
  by_cases hread : ∀ l ∈ locales, Readable key l
  · have htags : tagsOf key locales = .ok (locales.filterMap (readTag? key)) :=
      tagsOf_eq_ok_iff.mpr ⟨hread, rfl⟩
    rw [htags, hdeclared]
    cases hd : declarationOf? ds key with
    | some d =>
      have hdecl : Declares ds key := by
        by_contra hnot
        rw [declarationOf?_eq_none_iff.mpr hnot] at hd
        cases hd
      simp only [shadowed_eq hd, schemaOf, hd, hdecl, not_true_eq_false, false_implies, and_true]
      simp only [Except.ok.injEq, eq_comm, iff_and_self]
      exact fun _ => hread
    | none =>
      have hnot : ¬ Declares ds key := declarationOf?_eq_none_iff.mp hd
      simp only [map_eq_ok_iff_of_forall fun ps => commonParameters_eq_ok_iff, ← tagsAgree_iff,
        List.head?_filterMap, shadowedTag?_of_undeclared hd, schemaOf, hd]
      exact and_congr_left fun _ => ⟨fun hagree => ⟨hread, fun _ => hagree⟩, fun h => h.2 hnot⟩
  · -- A tag that cannot be read is an error, whether the key is declared or not.
    cases htags : tagsOf key locales with
    | ok ts => exact absurd (tagsOf_eq_ok_iff.mp htags).1 hread
    | error e => simp [hread]

/-! ## §5 All keys -/

theorem mem_sourceKeys_iff {locales : List LocaleEntries} {key : String} :
    key ∈ sourceKeys locales ↔ Sourced locales key := by
  rw [sourceKeys, KeyMap.mem_keys_iff, KeyMap.contains_iff]
  simp only [KeyMap.get?_erase, KeyMap.get?_ofList_map, List.mem_flatMap, KeyMap.mem_keys_iff, Sourced,
    LocaleEntries.has]
  by_cases hkey : key = ""
  · simp [hkey]
  · simp [hkey]

theorem sourceKeys_pairwise (locales : List LocaleEntries) : (sourceKeys locales).Pairwise (· < ·) :=
  KeyMap.keys_pairwise _

/-- A key that is declared and in a source has its declaration in the map of schemas, which comes later there. -/
private theorem get?_resolvedSchemas {ds : List Declaration} {declared : KeyMap Declaration}
    (hdeclared : ∀ key, declared.get? key = declarationOf? ds key) (locales : List LocaleEntries) (key : String) :
    (KeyMap.ofList (((sourceKeys locales).map fun key => (key, schemaOf ds locales key))
        ++ declared.entries.map fun e => (e.1, (⟨e.2.parameters, true⟩ : KeySchema)))).get? key
      = ((declarationOf? ds key).map fun d => ⟨d.parameters, true⟩).or
          (if key ∈ sourceKeys locales then some (schemaOf ds locales key) else none) := by
  have hmethods : (declared.entries.map fun e => (e.1, (⟨e.2.parameters, true⟩ : KeySchema)))
      = (declared.mapValues fun _ d => (⟨d.parameters, true⟩ : KeySchema)).entries := rfl
  rw [KeyMap.get?_ofList_append, hmethods, KeyMap.ofList_entries, KeyMap.get?_mapValues,
    KeyMap.get?_ofList_map, hdeclared]

/-- A resolution is known by the schemas of its keys and by what it reports. -/
private theorem eq_mk_iff {r : SchemaResolution} {schemas : KeyMap KeySchema} {issues : List Issue} :
    r = ⟨schemas, issues⟩ ↔ (∀ key, r.schemas.get? key = schemas.get? key) ∧ r.issues = issues := by
  refine ⟨fun h => ?_, fun h => ?_⟩
  · subst h
    exact ⟨fun key => rfl, rfl⟩
  · obtain ⟨schemas', issues'⟩ := r
    obtain ⟨hschemas, hissues⟩ := h
    rw [SchemaResolution.mk.injEq]
    exact ⟨KeyMap.ext_get? hschemas, hissues⟩

/-- The resolution of a contract in closed form: when it succeeds, which schemas it has, and what it reports. -/
theorem resolve_eq_ok_iff {contract : String} {ds : List Declaration} {locales : List LocaleEntries}
    {r : SchemaResolution} :
    resolve contract ds locales = .ok r ↔
      (DeclarationsAgree ds ∧ TagsReadable locales ∧ UndeclaredTagsAgree ds locales) ∧
        (∀ key, r.schemas.get? key = ((declarationOf? ds key).map fun d => ⟨d.parameters, true⟩).or
          (if key ∈ sourceKeys locales then some (schemaOf ds locales key) else none)) ∧
        r.issues = (sourceKeys locales).flatMap fun key => locales.filterMap (shadowedTag? contract ds key) := by
  unfold resolve
  cases hdecl : declaredKeys contract ds with
  | error e =>
    have hnot : ¬ DeclarationsAgree ds := by
      intro hagree
      obtain ⟨m, hm⟩ := exists_declaredKeys contract hagree
      rw [hdecl] at hm
      cases hm
    simp [hnot]
  | ok declared =>
    obtain ⟨hagree, hget⟩ := declaredKeys_eq_ok_iff.mp hdecl
    -- The conditions of the keys of sources, taken together, are those of the resolution.
    have hkeys : (∀ key ∈ sourceKeys locales,
        (∀ l ∈ locales, Readable key l) ∧ (¬ Declares ds key → TagsAgree locales key)) ↔
          TagsReadable locales ∧ UndeclaredTagsAgree ds locales := by
      simp only [mem_sourceKeys_iff]
      refine ⟨fun h => ⟨fun key hs => (h key hs).1, fun key hnot hs => (h key hs).2 hnot⟩, fun h key hs => ?_⟩
      exact ⟨h.1 key hs, fun hnot => h.2 key hnot hs⟩
    have hfound : ∀ found, traverse (resolveKey contract declared locales) (sourceKeys locales) = .ok found ↔
        (TagsReadable locales ∧ UndeclaredTagsAgree ds locales) ∧
          found = (sourceKeys locales).map fun key =>
            ((key, schemaOf ds locales key), locales.filterMap (shadowedTag? contract ds key)) := by
      intro found
      rw [traverse_eq_ok_iff_of_forall fun key x => resolveKey_eq_ok_iff hget, hkeys]
    rw [map_eq_ok_iff_of_forall hfound, eq_mk_iff]
    simp only [hagree, true_and, List.map_map, Function.comp_def, List.flatMap_map, get?_resolvedSchemas hget]

theorem exists_resolve {contract : String} {ds : List Declaration} {locales : List LocaleEntries}
    (hagree : DeclarationsAgree ds) (hread : TagsReadable locales) (htags : UndeclaredTagsAgree ds locales) :
    ∃ r, resolve contract ds locales = .ok r := by
  obtain ⟨declared, hdecl⟩ := exists_declaredKeys contract hagree
  have hget := (declaredKeys_eq_ok_iff.mp hdecl).2
  exact ⟨⟨_, _⟩, resolve_eq_ok_iff.mpr ⟨⟨hagree, hread, htags⟩, get?_resolvedSchemas hget locales, rfl⟩⟩

/-- Only declared keys are reported. -/
theorem issues_eq {contract : String} {ds : List Declaration} {locales : List LocaleEntries}
    {r : SchemaResolution} (h : resolve contract ds locales = .ok r) :
    r.issues = ((sourceKeys locales).filter fun key => (declarationOf? ds key).isSome).flatMap
      fun key => locales.filterMap (shadowedTag? contract ds key) := by
  rw [(resolve_eq_ok_iff.mp h).2.2]
  induction sourceKeys locales with
  | nil => rfl
  | cons key keys ih =>
    rw [List.flatMap_cons, ih, List.filter_cons]
    cases hd : declarationOf? ds key with
    | none => simp [shadowedTag?_of_undeclared hd]
    | some d => simp

theorem declares_or_sourced_iff {ds : List Declaration} {locales : List LocaleEntries} {contract key : String}
    {r : SchemaResolution} (h : resolve contract ds locales = .ok r) :
    r.schemas.contains key = true ↔ Declares ds key ∨ Sourced locales key := by
  rw [KeyMap.contains_iff, (resolve_eq_ok_iff.mp h).2.1, ← mem_sourceKeys_iff]
  cases hd : declarationOf? ds key with
  | none => simp [declarationOf?_eq_none_iff.mp hd]
  | some d =>
    have hdecl : Declares ds key := ⟨d, declares_of_declarationOf? hd⟩
    simp [hdecl]

/-- A declared key has the parameters of each of its declarations. -/
theorem get?_of_declares {ds : List Declaration} {locales : List LocaleEntries} {contract : String}
    {r : SchemaResolution} (h : resolve contract ds locales = .ok r) {d : Declaration} (hd : d ∈ ds) :
    r.schemas.get? d.key = some ⟨d.parameters, true⟩ := by
  obtain ⟨⟨hagree, -, -⟩, hget, -⟩ := resolve_eq_ok_iff.mp h
  rw [hget]
  cases hfirst : declarationOf? ds d.key with
  | none => exact absurd ⟨d, hd, rfl⟩ (declarationOf?_eq_none_iff.mp hfirst)
  | some first =>
    obtain ⟨hmem, hkey⟩ := declares_of_declarationOf? hfirst
    simp [hagree first hmem d hd hkey]

/-- A key that is not declared has the schema that its tags make. -/
theorem get?_of_not_declares {ds : List Declaration} {locales : List LocaleEntries} {contract key : String}
    {r : SchemaResolution} (h : resolve contract ds locales = .ok r) (hnot : ¬ Declares ds key)
    (hs : Sourced locales key) : r.schemas.get? key = some (schemaOf ds locales key) := by
  rw [(resolve_eq_ok_iff.mp h).2.1, declarationOf?_eq_none_iff.mpr hnot, if_pos (mem_sourceKeys_iff.mpr hs)]
  rfl

theorem schemaOf_of_spells {ds : List Declaration} {locales : List LocaleEntries} {key : String}
    (hnot : ¬ Declares ds key) (hagree : TagsAgree locales key) {l : LocaleEntries} (hl : l ∈ locales)
    {ps : ParameterList} (hps : Spells l key ps) : schemaOf ds locales key = ⟨ps, false⟩ := by
  rw [schemaOf, declarationOf?_eq_none_iff.mpr hnot]
  cases hfirst : locales.findSome? (readTag? key) with
  | none =>
    obtain ⟨t, ht, -⟩ := spells_iff.mp hps
    rw [List.findSome?_eq_none_iff.mp hfirst l hl] at ht
    cases ht
  | some t =>
    -- The first tag may be that of another locale, but spells the same.
    obtain ⟨l', hl', ht⟩ := List.exists_of_findSome?_eq_some hfirst
    have hsame : t.parameters = ps := hagree l' hl' l hl _ _ (spells_iff.mpr ⟨t, ht, rfl⟩) hps
    simp [hsame]

theorem schemaOf_of_untagged {ds : List Declaration} {locales : List LocaleEntries} {key : String}
    (hnot : ¬ Declares ds key) (huntagged : ∀ l ∈ locales, l.tag? key = none) :
    schemaOf ds locales key = ⟨[], false⟩ := by
  have hfirst : locales.findSome? (readTag? key) = none :=
    List.findSome?_eq_none_iff.mpr fun l hl => by simp [readTag?, huntagged l hl]
  rw [schemaOf, declarationOf?_eq_none_iff.mpr hnot, hfirst]
  rfl

/-! ## §6 The resolution as a whole -/

/-- **Schema resolution**: it succeeds exactly when declarations agree, tags can be read and the tags of undeclared
keys agree. Then it resolves the declared keys and the keys of sources, a declared key with the parameters of all
its declarations and any other key with those of its tags; and for each declared key of a source, in the order of
the keys and then of the locales, it reports the tags that spell something else. -/
theorem resolve_exact (contract : String) (ds : List Declaration) (locales : List LocaleEntries) :
    ((∃ r, resolve contract ds locales = .ok r) ↔
      DeclarationsAgree ds ∧ TagsReadable locales ∧ UndeclaredTagsAgree ds locales) ∧
    ∀ r, resolve contract ds locales = .ok r →
      (∀ key, r.schemas.contains key = true ↔ Declares ds key ∨ Sourced locales key) ∧
      (∀ d ∈ ds, r.schemas.get? d.key = some ⟨d.parameters, true⟩) ∧
      (∀ key, ¬ Declares ds key → Sourced locales key →
        (∀ l ∈ locales, ∀ ps, Spells l key ps → r.schemas.get? key = some ⟨ps, false⟩) ∧
        ((∀ l ∈ locales, l.tag? key = none) → r.schemas.get? key = some ⟨[], false⟩)) ∧
      ∃ keys : List String, keys.Pairwise (· < ·) ∧
        (∀ key, key ∈ keys ↔ Declares ds key ∧ Sourced locales key) ∧
        r.issues = keys.flatMap fun key => locales.filterMap (shadowedTag? contract ds key) := by
  refine ⟨⟨fun h => ?_, fun h => ?_⟩, fun r hr =>
    ⟨fun key => declares_or_sourced_iff hr, fun d hd => get?_of_declares hr hd, ?_, ?_⟩⟩
  · obtain ⟨r, hr⟩ := h
    exact (resolve_eq_ok_iff.mp hr).1
  · obtain ⟨hagree, hread, htags⟩ := h
    exact exists_resolve hagree hread htags
  -- Of a key that is not declared, the tags of all sources agree, so each of them gives the schema.
  · intro key hnot hs
    obtain ⟨-, -, hundeclared⟩ := (resolve_eq_ok_iff.mp hr).1
    rw [get?_of_not_declares hr hnot hs]
    refine ⟨fun l hl ps hps => ?_, fun huntagged => ?_⟩
    · rw [schemaOf_of_spells hnot (hundeclared key hnot hs) hl hps]
    · rw [schemaOf_of_untagged hnot huntagged]
  · refine ⟨_, (sourceKeys_pairwise locales).filter _, fun key => ?_, issues_eq hr⟩
    rw [List.mem_filter, mem_sourceKeys_iff, Option.isSome_iff_ne_none, ne_eq, declarationOf?_eq_none_iff,
      not_not, and_comm]

/-- A declaration of a key without parameters. -/
def bareDeclaration (key : String) : Declaration := ⟨key, key, [], 0, ["locale"]⟩

/-- A locale with one key, which has a tag. -/
def taggedEntries (key tag : String) : LocaleEntries :=
  ⟨"en-US", "en_us/greetings.yaml", .ofList [(key, ⟨"Hi", some tag⟩)]⟩

theorem resolve_exact_greeting :
    ∃ r, resolve "Greetings" [bareDeclaration "greeting"] [taggedEntries "greeting" "n:text"] = .ok r ∧
      r.schemas.get? "greeting" = some ⟨[], true⟩ := by
  obtain ⟨r, hr⟩ : ∃ r, resolve "Greetings" [bareDeclaration "greeting"] [taggedEntries "greeting" "n:text"]
      = .ok r := ⟨_, rfl⟩
  have hdeclared := ((resolve_exact _ _ _).2 r hr).2.1 (bareDeclaration "greeting") List.mem_cons_self
  exact ⟨r, hr, hdeclared⟩

/-- The empty key may be declared, but is no key of a source: a tag of it that spells something else than the
declaration is not reported. -/
theorem emptyKey_not_reported :
    ∃ r, resolve "Greetings" [bareDeclaration ""] [taggedEntries "" "n:text"] = .ok r ∧
      r.schemas.get? "" = some ⟨[], true⟩ ∧
      Spells (taggedEntries "" "n:text") "" [⟨"n", .builtin .text false⟩] ∧
      (bareDeclaration "").parameters ≠ [⟨"n", .builtin .text false⟩] ∧
      r.issues = [] :=
  ⟨_, rfl, rfl, ⟨"n:text", rfl, rfl⟩, by decide, rfl⟩

end SchemaResolution

end Phrasebook
