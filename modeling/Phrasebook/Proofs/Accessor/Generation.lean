import Phrasebook.Accessor.Generation
import Phrasebook.Proofs.KeyMap
import Phrasebook.Proofs.Name.Distinct
import Phrasebook.Proofs.Traverse

/-!
# What a table holds

A table has an accessor for each entry of its catalog and a method for each declaration, unless a check of names
fails.

- `ofCatalog_eq_ok_iff`: which checks pass, and what the table is then.
- `get?_accessors`, `get?_methods_eq_some_iff`: what is found in the table.
- `select_accessorOf`: the template that an accessor renders in a locale.
-/

namespace Phrasebook

open Phrasebook.Name

namespace Table

/-! ## §1 Accessors -/

theorem accessorsFrom_eq_ok_iff {c : Catalog} {locales : List String} {defaultLocale : String}
    {seen : List String} {es : List (String × CatalogEntry)} {as : List Accessor} :
    accessorsFrom c locales defaultLocale seen es = .ok as ↔
      (Fresh (seen.map accessor) (es.map fun e => accessor e.1) ∧
        ∀ e ∈ es, (e.2.schema.names.map ofParameter).Nodup) ∧
      as = es.map fun e => accessorOf locales defaultLocale e.1 e.2 := by
  -- By induction on the entries: what was seen grows, so it is general.
  induction es generalizing seen as with
  | nil => simp [accessorsFrom, eq_comm]
  | cons e es ih =>
    obtain ⟨key, e⟩ := e
    rw [accessorsFrom, List.forall_mem_cons, List.map_cons, fresh_cons_iff]
    cases hfind : seen.find? fun k => accessor k == accessor key with
    | some first =>
      have hseen : accessor key ∈ seen.map accessor := by
        apply List.mem_map.mpr
        exact ⟨first, List.mem_of_find?_eq_some hfind, by simpa using List.find?_some hfind⟩
      simp only [hseen, reduceCtorEq, not_true_eq_false, false_and]
    | none =>
      have hseen : accessor key ∉ seen.map accessor := by
        intro hmem
        obtain ⟨k, hk, heq⟩ := List.mem_map.mp hmem
        exact absurd heq (by simpa using List.find?_eq_none.mp hfind k hk)
      simp only [bind_eq_ok, pure_eq_ok, ensureDistinct_eq_ok_iff, ih, List.map_cons, hseen, not_false_eq_true,
        true_and]
      refine ⟨fun h => ?_, fun h => ?_⟩
      · obtain ⟨⟨⟩, hnames, _, ⟨⟨hfresh, hall⟩, rfl⟩, rfl⟩ := h
        exact ⟨⟨hfresh, hnames, hall⟩, rfl⟩
      · obtain ⟨⟨hfresh, hnames, hall⟩, rfl⟩ := h
        exact ⟨⟨⟩, hnames, _, ⟨⟨hfresh, hall⟩, rfl⟩, rfl⟩

/-! ## §2 Methods -/

/-- A method can be made exactly when its key has an entry and each parameter of the key has a place in a call. -/
theorem forwardingOf_eq_ok_iff {c : Catalog} {d : Declaration} {f : Forwarding} :
    forwardingOf c d = .ok f ↔
      ∃ e places, c.entries.get? d.key = some e ∧
        List.Forall₂ (fun (p : Parameter) i => d.methodParameters.findIdx? (fun name => name == p.name) = some i)
          e.schema places ∧
        f = ⟨d.method, d.key, d.methodParameters, d.localeSlot, places⟩ := by
  have hplace : ∀ (p : Parameter) (i : Nat), argumentPlace c d p = .ok i ↔
      d.methodParameters.findIdx? (fun name => name == p.name) = some i := by
    intro p i
    unfold argumentPlace
    cases d.methodParameters.findIdx? fun name => name == p.name <;> simp
  unfold forwardingOf
  cases c.entries.get? d.key with
  | none => simp
  | some e => simp only [map_eq_ok, traverse_eq_ok_iff, hplace, Option.some.injEq, exists_and_left, exists_eq_left']

/-- A method has the name and the parameters of its declaration. -/
theorem name_of_forwardingOf {c : Catalog} {d : Declaration} {f : Forwarding} (h : forwardingOf c d = .ok f) :
    f.name = d.method ∧ f.parameters = d.methodParameters := by
  obtain ⟨e, places, -, -, rfl⟩ := forwardingOf_eq_ok_iff.mp h
  exact ⟨rfl, rfl⟩

theorem names_of_forwardings {c : Catalog} {ds : List Declaration} {fs : List Forwarding}
    (h : List.Forall₂ (fun d f => forwardingOf c d = .ok f) ds fs) : fs.map (·.name) = ds.map (·.method) :=
  map_eq_map_of_forall₂ h fun _ _ hf => (name_of_forwardingOf hf).1

theorem methodsFrom_eq_ok_iff {c : Catalog} {seen : List String} {ds : List Declaration} {fs : List Forwarding} :
    methodsFrom c seen ds = .ok fs ↔
      (Fresh seen (ds.map (·.method)) ∧ ∀ d ∈ ds, (d.methodParameters.map ofParameter).Nodup) ∧
      List.Forall₂ (fun d f => forwardingOf c d = .ok f) ds fs := by
  -- By induction on the declarations; names that were seen are carried along.
  induction ds generalizing seen fs with
  | nil => simp [methodsFrom, eq_comm]
  | cons d ds ih =>
    rw [methodsFrom, List.forall_mem_cons, List.map_cons, fresh_cons_iff]
    by_cases hseen : d.method ∈ seen
    · simp [hseen]
    · have hcontains : seen.contains d.method = false := by simpa using hseen
      simp only [hcontains, Bool.false_eq_true, ↓reduceIte, bind_eq_ok, pure_eq_ok, ensureDistinct_eq_ok_iff, ih,
        hseen, not_false_eq_true, true_and, List.forall₂_cons_left_iff]
      refine ⟨fun h => ?_, fun h => ?_⟩
      · obtain ⟨⟨⟩, hnames, f, hf, fs, ⟨⟨hfresh, hall⟩, hfs⟩, rfl⟩ := h
        exact ⟨⟨hfresh, hnames, hall⟩, f, fs, hf, hfs, rfl⟩
      · obtain ⟨⟨hfresh, hnames, hall⟩, f, fs, hf, hfs, rfl⟩ := h
        exact ⟨⟨⟩, hnames, f, hf, fs, ⟨⟨hfresh, hall⟩, hfs⟩, rfl⟩

/-! ## §3 Tables -/

/-- The names that a table checks are distinct, and it has the accessors and methods of its catalog. -/
theorem ofCatalog_eq_ok_iff {c : Catalog} {ds : List Declaration} {locales : List String} {defaultLocale : String}
    {t : Table} :
    ofCatalog c ds locales defaultLocale = .ok t ↔
      ((c.entries.keys.map accessor).Nodup ∧
        (∀ e ∈ c.entries.entries, (e.2.schema.names.map ofParameter).Nodup) ∧
        (ds.map (·.method)).Nodup ∧ ∀ d ∈ ds, (d.methodParameters.map ofParameter).Nodup) ∧
      ∃ fs, List.Forall₂ (fun d f => forwardingOf c d = .ok f) ds fs ∧ (fs.map fun f => ofMethod f.name).Nodup ∧
        t = ⟨c.contract, c.fileName, locales, defaultLocale,
          c.entries.mapValues (accessorOf locales defaultLocale), .ofList (fs.map fun f => (f.name, f))⟩ := by
  -- The accessors come in the order of the keys, so sorting them again by key changes nothing.
  have haccessors : KeyMap.ofList ((c.entries.entries.map fun e => accessorOf locales defaultLocale e.1 e.2).map
      fun a => (a.key, a)) = c.entries.mapValues (accessorOf locales defaultLocale) := by
    rw [List.map_map]
    exact KeyMap.ofList_entries (c.entries.mapValues (accessorOf locales defaultLocale))
  simp only [ofCatalog, bind_eq_ok, pure_eq_ok, accessorsFrom_eq_ok_iff, methodsFrom_eq_ok_iff,
    ensureDistinct_eq_ok_iff, KeyMap.keys, List.map_map, Function.comp_def, List.map_nil, fresh_nil_left_iff]
  refine ⟨fun h => ?_, fun h => ?_⟩
  · obtain ⟨_, ⟨⟨hkeys, hparameters⟩, rfl⟩, fs, ⟨⟨hmethods, hall⟩, hfs⟩, ⟨⟩, hnames, rfl⟩ := h
    refine ⟨⟨hkeys, hparameters, hmethods, hall⟩, fs, hfs, hnames, ?_⟩
    rw [← haccessors, List.map_map]
  · obtain ⟨⟨hkeys, hparameters, hmethods, hall⟩, fs, hfs, hnames, rfl⟩ := h
    refine ⟨_, ⟨⟨hkeys, hparameters⟩, rfl⟩, fs, ⟨⟨hmethods, hall⟩, hfs⟩, ⟨⟩, hnames, ?_⟩
    rw [← haccessors, List.map_map]

variable {c : Catalog} {ds : List Declaration} {locales : List String} {defaultLocale : String} {t : Table}

theorem locales_of_ofCatalog (h : ofCatalog c ds locales defaultLocale = .ok t) : t.locales = locales := by
  obtain ⟨-, fs, -, -, rfl⟩ := ofCatalog_eq_ok_iff.mp h
  rfl

theorem contract_of_ofCatalog (h : ofCatalog c ds locales defaultLocale = .ok t) : t.contract = c.contract := by
  obtain ⟨-, fs, -, -, rfl⟩ := ofCatalog_eq_ok_iff.mp h
  rfl

/-- The accessors of a table are those of the entries of its catalog. -/
theorem get?_accessors (h : ofCatalog c ds locales defaultLocale = .ok t) (key : String) :
    t.accessors.get? key = (c.entries.get? key).map (accessorOf locales defaultLocale key) := by
  obtain ⟨-, fs, -, -, rfl⟩ := ofCatalog_eq_ok_iff.mp h
  exact KeyMap.get?_mapValues _ _ _

theorem idents_accessors (h : ofCatalog c ds locales defaultLocale = .ok t) :
    t.accessors.values.map (·.ident) = c.entries.keys.map accessor := by
  obtain ⟨-, fs, -, -, rfl⟩ := ofCatalog_eq_ok_iff.mp h
  simp only [KeyMap.values, KeyMap.keys, KeyMap.mapValues, List.map_map]
  rfl

/-- The methods of a table are those of the declarations. -/
theorem exists_forwardings (h : ofCatalog c ds locales defaultLocale = .ok t) :
    ∃ fs, List.Forall₂ (fun d f => forwardingOf c d = .ok f) ds fs ∧ t.methods = .ofList (fs.map fun f => (f.name, f)) ∧
      ((fs.map fun f => (f.name, f)).map (·.1)).Nodup := by
  obtain ⟨⟨-, -, hmethods, -⟩, fs, hfs, -, rfl⟩ := ofCatalog_eq_ok_iff.mp h
  refine ⟨fs, hfs, rfl, ?_⟩
  rw [List.map_map]
  exact names_of_forwardings hfs ▸ hmethods

theorem get?_methods_eq_some_iff (h : ofCatalog c ds locales defaultLocale = .ok t) {name : String}
    {f : Forwarding} : t.methods.get? name = some f ↔ ∃ d ∈ ds, d.method = name ∧ forwardingOf c d = .ok f := by
  obtain ⟨fs, hfs, hmethods, hnodup⟩ := exists_forwardings h
  rw [hmethods, KeyMap.get?_ofList_eq_some_iff hnodup, List.mem_map]
  refine ⟨fun hmem => ?_, fun hd => ?_⟩
  · obtain ⟨f', hf', heq⟩ := hmem
    obtain ⟨rfl, rfl⟩ := Prod.mk.inj heq
    obtain ⟨d, hd, hfd⟩ := exists_of_forall₂_of_mem_right hfs hf'
    exact ⟨d, hd, (name_of_forwardingOf hfd).1.symm, hfd⟩
  · obtain ⟨d, hd, rfl, hfd⟩ := hd
    obtain ⟨f', hf', hfd'⟩ := exists_of_forall₂_of_mem hfs hd
    obtain rfl : f' = f := Except.ok.inj (hfd'.symm.trans hfd)
    exact ⟨f', hf', by rw [(name_of_forwardingOf hfd).1]⟩

/-- The methods of a table are named as they are declared, in another order. -/
theorem names_methods_perm (h : ofCatalog c ds locales defaultLocale = .ok t) :
    (t.methods.values.map (·.name)).Perm (ds.map (·.method)) := by
  obtain ⟨fs, hfs, hmethods, hnodup⟩ := exists_forwardings h
  have hperm := (KeyMap.entries_ofList_perm hnodup).map fun e => e.2.name
  rw [← names_of_forwardings hfs, hmethods, KeyMap.values, List.map_map]
  rw [List.map_map] at hperm
  exact hperm

/-- The parameters of an accessor have distinct identifiers. -/
theorem idents_nodup_of_get? (h : ofCatalog c ds locales defaultLocale = .ok t) {key : String} {a : Accessor}
    (ha : t.accessors.get? key = some a) : (a.schema.names.map ofParameter).Nodup := by
  rw [get?_accessors h, Option.map_eq_some_iff] at ha
  obtain ⟨e, he, rfl⟩ := ha
  exact (ofCatalog_eq_ok_iff.mp h).1.2.1 (key, e) (KeyMap.mem_entries_iff.mpr he)

/-! ## §4 Selection -/

theorem mem_locales_of_mem_branchesOf {e : CatalogEntry} {b : Branch} (h : b ∈ branchesOf locales defaultLocale e) :
    b.locale ∈ locales := by
  obtain ⟨l, hl, hb⟩ := List.mem_filterMap.mp h
  obtain ⟨t, -, rfl⟩ := Option.map_eq_some_iff.mp hb
  exact (List.mem_filter.mp hl).1

private theorem find?_filterMap_branch (template? : String → Option Template) (locales : List String)
    (locale : String) :
    (locales.filterMap fun l => (template? l).map fun t => (⟨l, t⟩ : Branch)).find? (fun b => b.locale == locale)
      = if locale ∈ locales then (template? locale).map fun t => ⟨locale, t⟩ else none := by
  induction locales with
  | nil => rfl
  | cons l ls ih =>
    rw [List.filterMap_cons]
    by_cases hl : l = locale
    · subst hl
      cases ht : template? l with
      | none => simp [ih, ht]
      | some t => simp
    · cases ht : template? l with
      | none => simp [ih, Ne.symm hl]
      | some t =>
        simp only [Option.map_some, List.mem_cons, Ne.symm hl, false_or]
        rw [List.find?_cons_of_neg (by simpa using hl), ih]

theorem map_fallbackOf (locales : List String) (defaultLocale : String) (e : CatalogEntry) :
    (fallbackOf locales defaultLocale e).map (·.template)
      = (e.templates.get? defaultLocale).or (locales.findSome? fun l => e.templates.get? l) := by
  rw [fallbackOf, List.map_findSome?]
  have hget : (Option.map (·.template) ∘ fun l => (e.templates.get? l).map fun t => (⟨l, t⟩ : Branch))
      = fun l => e.templates.get? l := by
    funext l
    simp only [Function.comp_apply, Option.map_map]
    exact Option.map_id'
  rw [hget, List.findSome?_cons]
  cases e.templates.get? defaultLocale <;> rfl

/-- The template of a locale is its own, or else that of the default locale, or else that of the first locale which
has one. -/
theorem select_accessorOf (key : String) (e : CatalogEntry) {locale : String} (hl : locale ∈ locales) :
    (accessorOf locales defaultLocale key e).select locale
      = (e.templates.get? locale).or
          ((e.templates.get? defaultLocale).or (locales.findSome? fun l => e.templates.get? l)) := by
  rw [Accessor.select, Option.map_or]
  simp only [accessorOf, map_fallbackOf]
  rw [branchesOf, find?_filterMap_branch]
  by_cases hdefault : locale = defaultLocale
  · -- The default locale has no branch: its template is the first choice of the fallback.
    subst hdefault
    have hnot : locale ∉ locales.filter fun l => l != locale := by simp
    rw [if_neg hnot, Option.map_none, Option.none_or, ← Option.or_assoc, Option.or_self]
  · have hmem : locale ∈ locales.filter fun l => l != defaultLocale := by simp [hl, hdefault]
    rw [if_pos hmem, Option.map_map]
    cases e.templates.get? locale <;> rfl

/-- A locale, known or not, has no template but that of a locale. -/
theorem exists_template_of_select {key : String} {e : CatalogEntry} {locale : String} {template : Template}
    (h : (accessorOf locales defaultLocale key e).select locale = some template) :
    ∃ l ∈ defaultLocale :: locales, e.templates.get? l = some template := by
  rw [Accessor.select, Option.map_or, Option.or_eq_some_iff] at h
  rcases h with hbranch | ⟨-, hfallback⟩
  · simp only [accessorOf, branchesOf, find?_filterMap_branch] at hbranch
    split at hbranch
    · rename_i hmem
      refine ⟨locale, List.mem_cons_of_mem _ (List.mem_filter.mp hmem).1, ?_⟩
      cases hget : e.templates.get? locale with
      | none => simp [hget] at hbranch
      | some t => simpa [hget] using hbranch
    · cases hbranch
  -- The fallback is the text of the default locale, or else the first one there is.
  · simp only [accessorOf, map_fallbackOf, Option.or_eq_some_iff] at hfallback
    rcases hfallback with hdefault | ⟨-, hfirst⟩
    · exact ⟨defaultLocale, List.mem_cons_self, hdefault⟩
    · obtain ⟨l, hl, hget⟩ := List.exists_of_findSome?_eq_some hfirst
      exact ⟨l, List.mem_cons_of_mem _ hl, hget⟩

end Table

end Phrasebook
