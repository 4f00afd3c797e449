import Phrasebook.Proofs.Source.Flattening

/-!
# Which values with tags become sources

A source holds texts and mappings of them. A value becomes a tree just when it holds nothing else, at any depth and
under whatever tags; otherwise the first thing in the document that a source may not hold is named, at the key that a
text in its place would have.

## Layers

1. **Occurrences**: the values within a value, and which of them a source may not hold.
2. **The first fault**: the one that no other is in front of, with the names on the way to it.
3. **Trees**: the tree that shows a value, its scalars with the tags they are under.
4. **Conversion**: whether a value fails, with which error, and what it gives, by induction along its entries.
5. **Places**: a text that stands somewhere in a value is a leaf of the tree at that place.
-/

namespace Phrasebook

/-! ## §1 Occurrences -/

namespace Yaml.Value

/-- A value that can be the key of a phrase, with its name. -/
inductive Names : Value → String → Prop where
  | string (s : String) : Names (.string s) s
  | number (n : Number) : Names (.number n) n.text
  | bool (b : Bool) : Names (.bool b) (SourceTree.boolText b)

/-- A value without parts, with its text. -/
inductive ScalarText : Value → String → Prop where
  | null : ScalarText .null ""
  | name {v : Value} {text : String} (h : Names v text) : ScalarText v text

mutual

/-- Induction along the entries of mappings: the keys of entries and the items of sequences have no trees. -/
theorem inductionOnEntries {motive : Value → Prop} (scalar : ∀ v text, ScalarText v text → motive v)
    (sequence : ∀ items, motive (.sequence items))
    (mapping : ∀ entries, (∀ e ∈ entries, motive e.2) → motive (.mapping entries))
    (tagged : ∀ t v, motive v → motive (.tagged t v)) : (v : Value) → motive v
  | .null => scalar _ _ .null
  | .bool b => scalar _ _ (.name (.bool b))
  | .number n => scalar _ _ (.name (.number n))
  | .string s => scalar _ _ (.name (.string s))
  | .sequence items => sequence items
  | .mapping entries => mapping entries (inductionOnEntries_all scalar sequence mapping tagged entries)
  | .tagged t v => tagged t v (inductionOnEntries scalar sequence mapping tagged v)

theorem inductionOnEntries_all {motive : Value → Prop} (scalar : ∀ v text, ScalarText v text → motive v)
    (sequence : ∀ items, motive (.sequence items))
    (mapping : ∀ entries, (∀ e ∈ entries, motive e.2) → motive (.mapping entries))
    (tagged : ∀ t v, motive v → motive (.tagged t v)) :
    (entries : List (Value × Value)) → ∀ e ∈ entries, motive e.2
  | [] => List.forall_mem_nil _
  | (_, v) :: entries => List.forall_mem_cons.mpr ⟨inductionOnEntries scalar sequence mapping tagged v,
      inductionOnEntries_all scalar sequence mapping tagged entries⟩

end

/-- A value within another one, or the value itself. -/
inductive Occurs (u : Value) : Value → Prop where
  | here : Occurs u u
  | item {items : List Value} {v : Value} (hv : v ∈ items) (h : Occurs u v) : Occurs u (.sequence items)
  | key {entries : List (Value × Value)} {e : Value × Value} (he : e ∈ entries) (h : Occurs u e.1) :
      Occurs u (.mapping entries)
  | value {entries : List (Value × Value)} {e : Value × Value} (he : e ∈ entries) (h : Occurs u e.2) :
      Occurs u (.mapping entries)
  | tagged {t : String} {v : Value} (h : Occurs u v) : Occurs u (.tagged t v)

/-- What a source may not hold: a sequence, or a mapping with a key that gives no name. -/
inductive Offends : Value → Prop where
  | sequence (items : List Value) : Offends (.sequence items)
  | mappingKey {entries : List (Value × Value)} {e : Value × Value} (he : e ∈ entries)
      (hkey : ∀ name, ¬ Names e.1 name) : Offends (.mapping entries)

/-- Somewhere in a value is what a source may not hold. -/
def Faulty (v : Value) : Prop := ∃ u, Occurs u v ∧ Offends u

/-- An entry that a source may hold. -/
def SoundEntry (e : Value × Value) : Prop := (∃ name, Names e.1 name) ∧ ¬ Faulty e.2

variable {v k : Value} {name text : String}

theorem keyName?_eq_some_iff : SourceTree.keyName? k = some name ↔ Names k name := by
  constructor
  · intro h
    cases k <;> cases h <;> constructor
  · intro h
    cases h <;> rfl

theorem keyName?_eq_none_iff : SourceTree.keyName? k = none ↔ ∀ name, ¬ Names k name := by
  rw [Option.eq_none_iff_forall_ne_some]
  exact forall_congr' fun name => not_congr keyName?_eq_some_iff

theorem ScalarText.unique {a b : String} (ha : ScalarText v a) (hb : ScalarText v b) : a = b := by
  -- The null value gives no name, so both texts come about in the same way.
  cases ha with
  | null =>
    cases hb with
    | null => rfl
    | name hb => cases hb
  | name ha =>
    cases ha <;>
    · cases hb with
      | name hb =>
        cases hb
        rfl

theorem ScalarText.not_faulty (h : ScalarText v text) : ¬ Faulty v := by
  rintro ⟨u, hu, hoffends⟩
  cases h with
  | null => cases hu; cases hoffends
  | name h => cases h <;> cases hu <;> cases hoffends

theorem faulty_tagged_iff {t : String} : Faulty (.tagged t v) ↔ Faulty v := by
  constructor
  · rintro ⟨u, hu, hoffends⟩
    cases hu with
    | here => cases hoffends
    | tagged h => exact ⟨u, h, hoffends⟩
  · rintro ⟨u, hu, hoffends⟩
    exact ⟨u, .tagged hu, hoffends⟩

/-- A mapping is sound when its entries are. -/
theorem not_faulty_mapping_iff {entries : List (Value × Value)} :
    ¬ Faulty (.mapping entries) ↔ ∀ e ∈ entries, SoundEntry e := by
  constructor
  · intro hsound e he
    refine ⟨?_, fun hvalue => ?_⟩
    · by_contra hkey
      exact hsound ⟨_, .here, .mappingKey he (not_exists.mp hkey)⟩
    · obtain ⟨u, hu, hoffends⟩ := hvalue
      exact hsound ⟨u, .value he hu, hoffends⟩
  · rintro hsound ⟨u, hu, hoffends⟩
    cases hu with
    | here =>
      cases hoffends with
      | mappingKey he hkey =>
        obtain ⟨name, hname⟩ := (hsound _ he).1
        exact hkey name hname
    | key he h =>
      -- A key that is a name has nothing within it.
      obtain ⟨name, hname⟩ := (hsound _ he).1
      exact (ScalarText.name hname).not_faulty ⟨u, h, hoffends⟩
    | value he h => exact (hsound _ he).2 ⟨u, h, hoffends⟩

/-! ## §2 The first fault -/

/-- The first fault of a value in the order of the document, with the names on the way to it. A key has the place of its
mapping. -/
inductive FirstFault : Value → Unsupported → List String → Prop where
  | sequence (items : List Value) : FirstFault (.sequence items) .sequence []
  | tagged {t : String} {v : Value} {what : Unsupported} {place : List String} (h : FirstFault v what place) :
      FirstFault (.tagged t v) what place
  | key {before behind : List (Value × Value)} {k v : Value} (hbefore : ∀ e ∈ before, SoundEntry e)
      (hkey : ∀ name, ¬ Names k name) : FirstFault (.mapping (before ++ (k, v) :: behind)) .mappingKey []
  | value {before behind : List (Value × Value)} {k v : Value} {name : String} {what : Unsupported}
      {place : List String} (hbefore : ∀ e ∈ before, SoundEntry e) (hkey : Names k name)
      (h : FirstFault v what place) : FirstFault (.mapping (before ++ (k, v) :: behind)) what (name :: place)

/-- What is faulty has a first fault. -/
theorem exists_firstFault (v : Value) (h : Faulty v) : ∃ what place, FirstFault v what place := by
  induction v using inductionOnEntries with
  | scalar v text hscalar => exact absurd h hscalar.not_faulty
  | sequence items => exact ⟨_, _, .sequence items⟩
  | mapping entries ih =>
    obtain ⟨before, ⟨k, v⟩, behind, rfl, hbefore, hentry⟩ :=
      exists_first_of_not_forall fun hsound => not_faulty_mapping_iff.mpr hsound h
    -- The first entry that is not sound has its fault in the key, or else in the value.
    by_cases hkey : ∃ name, Names k name
    · obtain ⟨name, hname⟩ := hkey
      have hvalue : Faulty v := by
        by_contra hsound
        exact hentry ⟨⟨name, hname⟩, hsound⟩
      obtain ⟨what, place, hfirst⟩ := ih (k, v) (by simp) hvalue
      exact ⟨what, name :: place, .value hbefore hname hfirst⟩
    · exact ⟨_, _, .key hbefore (not_exists.mp hkey)⟩
  | tagged t v ih =>
    obtain ⟨what, place, hfirst⟩ := ih (faulty_tagged_iff.mp h)
    exact ⟨what, place, .tagged hfirst⟩

/-! ## §3 Trees -/

/-- A value that is left when the tags around it are taken away, with the innermost of them. -/
inductive Under : Value → Option String → Value → Prop where
  | untagged {v : Value} (h : ∀ t u, v ≠ .tagged t u) : Under v none v
  | tagged {t : String} {v w : Value} {tag : Option String} (h : Under v tag w) :
      Under (.tagged t v) (tag.or (some t)) w

mutual

/-- The tree that shows a value: its scalars have their texts and the innermost tags directly around them, and a mapping
has its entries in their order. -/
inductive Shown : Value → SourceTree → Prop where
  | scalar {v w : Value} {tag : Option String} {text : String} (hunder : Under v tag w) (htext : ScalarText w text) :
      Shown v (.leaf ⟨text, tag.map SourceTree.bareTag⟩)
  | mapping {v : Value} {tag : Option String} {entries : List (Value × Value)}
      {children : List (String × SourceTree)} (hunder : Under v tag (.mapping entries))
      (hentries : ShownEntries entries children) : Shown v (.branch children)

/-- The children that show the entries of a mapping, one by one. -/
inductive ShownEntries : List (Value × Value) → List (String × SourceTree) → Prop where
  | nil : ShownEntries [] []
  | cons {k v : Value} {name : String} {t : SourceTree} {entries : List (Value × Value)}
      {children : List (String × SourceTree)} (hkey : Names k name) (h : Shown v t)
      (hrest : ShownEntries entries children) : ShownEntries ((k, v) :: entries) ((name, t) :: children)

end

end Yaml.Value

/-- A tree whose text, if it is one without a tag, gets the tag of a value around it. -/
def SourceTree.within (outer : Option String) : SourceTree → SourceTree
  | .leaf content => .leaf ⟨content.text, content.tag.or outer⟩
  | .branch children => .branch children

namespace Yaml.Value

open SourceTree

theorem within_none (t : SourceTree) : t.within none = t := by
  cases t with
  | leaf content => rw [SourceTree.within, Option.or_none]
  | branch children => rfl

/-- An inner tag hides the outer one. -/
theorem within_some (tag : String) (outer : Option String) (t : SourceTree) :
    (t.within (some tag)).within outer = t.within (some tag) := by
  cases t with
  | leaf content =>
    rw [SourceTree.within, SourceTree.within, Option.or_assoc]
    rfl
  | branch children => rfl

theorem shown_tagged_iff {t : String} {v : Value} {s : SourceTree} :
    Shown (.tagged t v) s ↔ ∃ r, Shown v r ∧ s = r.within (some (bareTag t)) := by
  -- A tag further inside counts, and the outer one only where there is none.
  have htags : ∀ tag : Option String, (tag.or (some t)).map bareTag = (tag.map bareTag).or (some (bareTag t)) := by
    intro tag
    cases tag <;> rfl
  constructor
  · intro h
    cases h with
    | scalar hunder htext =>
      cases hunder with
      | untagged h => exact absurd rfl (h t v)
      | tagged h => exact ⟨_, .scalar h htext, by rw [htags, SourceTree.within]⟩
    | mapping hunder hentries =>
      cases hunder with
      | tagged h => exact ⟨_, .mapping h hentries, rfl⟩
  · rintro ⟨r, hr, rfl⟩
    cases hr with
    | scalar hunder htext =>
      rw [SourceTree.within, ← htags]
      exact .scalar (.tagged hunder) htext
    | mapping hunder hentries => exact .mapping (.tagged hunder) hentries

/-- What is no tag is under none. -/
theorem Under.eq_of_ne_tagged {v w : Value} {tag : Option String} (h : Under v tag w)
    (hv : ∀ t u, v ≠ .tagged t u) : tag = none ∧ w = v := by
  cases h with
  | untagged => exact ⟨rfl, rfl⟩
  | tagged => exact absurd rfl (hv _ _)

theorem shown_scalar_iff {v : Value} {text : String} (h : ScalarText v text) {s : SourceTree} :
    Shown v s ↔ s = .leaf ⟨text, none⟩ := by
  -- A scalar is not tagged itself, so no tag is found under it.
  have hv : ∀ t u, v ≠ .tagged t u := by
    rintro t u rfl
    cases h with
    | name h => cases h
  constructor
  · intro hs
    cases hs with
    | scalar hunder htext =>
      obtain ⟨rfl, rfl⟩ := hunder.eq_of_ne_tagged hv
      rw [htext.unique h]
      rfl
    | mapping hunder hentries =>
      obtain ⟨-, rfl⟩ := hunder.eq_of_ne_tagged hv
      cases h with
      | name h => cases h
  · rintro rfl
    exact .scalar (.untagged hv) h

theorem shown_mapping_iff {entries : List (Value × Value)} {s : SourceTree} :
    Shown (.mapping entries) s ↔ ∃ children, ShownEntries entries children ∧ s = .branch children := by
  have hv : ∀ t u, Value.mapping entries ≠ .tagged t u := fun t u h => by cases h
  constructor
  · intro hs
    cases hs with
    | scalar hunder htext =>
      obtain ⟨-, rfl⟩ := hunder.eq_of_ne_tagged hv
      cases htext with
      | name h => cases h
    | mapping hunder hentries =>
      obtain ⟨-, hsame⟩ := hunder.eq_of_ne_tagged hv
      cases hsame
      exact ⟨_, hentries, rfl⟩
  · rintro ⟨children, hentries, rfl⟩
    exact .mapping (.untagged hv) hentries

theorem not_shown_sequence {items : List Value} {s : SourceTree} : ¬ Shown (.sequence items) s := by
  have hv : ∀ t u, Value.sequence items ≠ .tagged t u := fun t u h => by cases h
  intro hs
  cases hs with
  | scalar hunder htext =>
    obtain ⟨-, rfl⟩ := hunder.eq_of_ne_tagged hv
    cases htext with
    | name h => cases h
  | mapping hunder hentries => cases (hunder.eq_of_ne_tagged hv).2

end Yaml.Value

/-! ## §4 Conversion -/

namespace SourceTree

open Yaml.Value

/-- An entry whose key is a name. -/
theorem ofYamlEntries_cons {k : Yaml.Value} {name : String} (h : Names k name) (key : String) (v : Yaml.Value)
    (es : List (Yaml.Value × Yaml.Value)) :
    ofYamlEntries key ((k, v) :: es) =
      (ofYaml none (childKey key name) v >>= fun t => (ofYamlEntries key es).map ((name, t) :: ·)) := by
  rw [ofYamlEntries, keyName?_eq_some_iff.mpr h]
  simp only
  cases ofYaml none (childKey key name) v <;> rfl

theorem ofYamlEntries_cons_of_not {k : Yaml.Value} (h : ∀ name, ¬ Names k name) (key : String) (v : Yaml.Value)
    (es : List (Yaml.Value × Yaml.Value)) :
    ofYamlEntries key ((k, v) :: es) = .error (.unsupported .mappingKey key) := by
  rw [ofYamlEntries, keyName?_eq_none_iff.mpr h]

theorem ofYaml_of_scalarText {v : Yaml.Value} {text : String} (h : ScalarText v text) (tag : Option String)
    (key : String) : ofYaml tag key v = .ok (.leaf ⟨text, tag⟩) := by
  cases h with
  | null => rfl
  | name h => cases h <;> rfl

theorem exists_ofYamlEntries {es : List (Yaml.Value × Yaml.Value)} (hsound : ∀ e ∈ es, SoundEntry e) (key : String)
    (h : ∀ e ∈ es, ∀ key, ∃ t, ofYaml none key e.2 = .ok t) : ∃ ts, ofYamlEntries key es = .ok ts := by
  induction es with
  | nil => exact ⟨[], rfl⟩
  | cons e es ih =>
    rw [List.forall_mem_cons] at hsound h
    obtain ⟨name, hname⟩ := hsound.1.1
    obtain ⟨t, ht⟩ := h.1 (childKey key name)
    obtain ⟨ts, hts⟩ := ih hsound.2 h.2
    exact ⟨(name, t) :: ts, by rw [ofYamlEntries_cons hname, ht, hts]; rfl⟩

/-- What is not faulty becomes a tree. -/
theorem exists_ofYaml {v : Yaml.Value} (h : ¬ v.Faulty) (tag : Option String) (key : String) :
    ∃ t, ofYaml tag key v = .ok t := by
  induction v using inductionOnEntries generalizing tag key with
  | scalar v text hscalar => exact ⟨_, ofYaml_of_scalarText hscalar tag key⟩
  | sequence items => exact absurd ⟨_, .here, .sequence items⟩ h
  | mapping entries ih =>
    -- The tag around a mapping does not reach its entries.
    have hsound := not_faulty_mapping_iff.mp h
    obtain ⟨ts, hts⟩ := exists_ofYamlEntries hsound key fun e he key => ih e he (hsound e he).2 none key
    exact ⟨.branch ts, map_eq_ok.mpr ⟨ts, hts, rfl⟩⟩
  | tagged t v ih => exact ih (fun hv => h (faulty_tagged_iff.mpr hv)) _ key

/-- Behind sound entries, the error is that of the entries after them. -/
theorem ofYamlEntries_error {before : List (Yaml.Value × Yaml.Value)} (h : ∀ e ∈ before, SoundEntry e) {key : String}
    {es : List (Yaml.Value × Yaml.Value)} {error : SourceError} (hes : ofYamlEntries key es = .error error) :
    ofYamlEntries key (before ++ es) = .error error := by
  induction before with
  | nil => exact hes
  | cons e before ih =>
    rw [List.forall_mem_cons] at h
    obtain ⟨name, hname⟩ := h.1.1
    obtain ⟨t, ht⟩ := exists_ofYaml h.1.2 none (childKey key name)
    rw [List.cons_append, ofYamlEntries_cons hname, ht]
    exact map_eq_error.mpr (ih h.2)

/-- The first fault of a value is its error, with the key of its place. -/
theorem ofYaml_of_firstFault {v : Yaml.Value} {what : Unsupported} {place : List String} (h : FirstFault v what place)
    (tag : Option String) (key : String) : ofYaml tag key v = .error (.unsupported what (place.foldl childKey key)) := by
  induction h generalizing tag key with
  | sequence items => rfl
  | tagged h ih => exact ih _ key
  | key hbefore hkey =>
    apply map_eq_error.mpr
    exact ofYamlEntries_error hbefore (ofYamlEntries_cons_of_not hkey key _ _)
  | value hbefore hkey h ih =>
    -- Below the entry, the key of the place begins with the name of the entry.
    apply map_eq_error.mpr
    apply ofYamlEntries_error hbefore
    rw [ofYamlEntries_cons hkey, ih none]
    rfl

theorem ofYaml_fails_iff {v : Yaml.Value} {tag : Option String} {key : String} :
    (∃ e, ofYaml tag key v = .error e) ↔ v.Faulty := by
  refine fails_iff_of_not (fun h => exists_ofYaml h tag key) fun h => ?_
  obtain ⟨what, place, hfirst⟩ := exists_firstFault v h
  exact ⟨_, ofYaml_of_firstFault hfirst tag key⟩

/-- A value fails with its first fault, and with no other error. -/
theorem ofYaml_eq_error_iff {v : Yaml.Value} {tag : Option String} {key : String} {e : SourceError} :
    ofYaml tag key v = .error e ↔
      ∃ what place, FirstFault v what place ∧ e = .unsupported what (place.foldl childKey key) := by
  apply eq_error_iff_of_exists
  · rintro e ⟨what, place, hfirst, rfl⟩
    exact ofYaml_of_firstFault hfirst tag key
  · intro h
    obtain ⟨what, place, hfirst⟩ := exists_firstFault v (ofYaml_fails_iff.mp h)
    exact ⟨_, what, place, hfirst, rfl⟩

theorem shownEntries_iff {es : List (Yaml.Value × Yaml.Value)} (key : String)
    (h : ∀ e ∈ es, ∀ key t, ofYaml none key e.2 = .ok t ↔ Shown e.2 t) {ts : List (String × SourceTree)} :
    ofYamlEntries key es = .ok ts ↔ ShownEntries es ts := by
  induction es generalizing ts with
  | nil =>
    constructor
    · intro hts
      rw [← Except.ok.inj hts]
      exact .nil
    · intro hts
      cases hts
      rfl
  | cons e es ih =>
    obtain ⟨k, v⟩ := e
    rw [List.forall_mem_cons] at h
    constructor
    · intro hts
      -- A key without a name stops the conversion here.
      by_cases hkey : ∃ name, Names k name
      · obtain ⟨name, hname⟩ := hkey
        rw [ofYamlEntries_cons hname] at hts
        obtain ⟨t, ht, hrest⟩ := bind_eq_ok.mp hts
        obtain ⟨ts', hts', rfl⟩ := map_eq_ok.mp hrest
        exact .cons hname ((h.1 _ t).mp ht) ((ih h.2).mp hts')
      · rw [ofYamlEntries_cons_of_not (not_exists.mp hkey)] at hts
        cases hts
    · intro hts
      cases hts with
      | cons hname ht hrest =>
        rw [ofYamlEntries_cons hname, (h.1 _ _).mpr ht, (ih h.2).mpr hrest]
        rfl

/-- The tree of a value is the one that shows it, its text getting the tag around the value. -/
theorem ofYaml_eq_ok_iff {v : Yaml.Value} {tag : Option String} {key : String} {t : SourceTree} :
    ofYaml tag key v = .ok t ↔ ∃ s, Shown v s ∧ t = s.within tag := by
  induction v using inductionOnEntries generalizing tag key t with
  | scalar v text hscalar =>
    rw [ofYaml_of_scalarText hscalar]
    constructor
    · intro h
      exact ⟨.leaf ⟨text, none⟩, (shown_scalar_iff hscalar).mpr rfl, (Except.ok.inj h).symm⟩
    · rintro ⟨s, hs, rfl⟩
      rw [(shown_scalar_iff hscalar).mp hs]
      rfl
  | sequence items => exact iff_of_false (fun h => by cases h) fun ⟨_, h, _⟩ => not_shown_sequence h
  | mapping entries ih =>
    have hentries : ∀ ts, ofYamlEntries key entries = .ok ts ↔ ShownEntries entries ts := by
      intro ts
      apply shownEntries_iff
      intro e he key t
      -- An entry has no tag around it.
      rw [ih e he]
      simp only [within_none, exists_eq_right']
    show (ofYamlEntries key entries).map .branch = .ok t ↔ _
    rw [map_eq_ok]
    constructor
    · rintro ⟨ts, hts, rfl⟩
      exact ⟨.branch ts, shown_mapping_iff.mpr ⟨ts, (hentries ts).mp hts, rfl⟩, rfl⟩
    · rintro ⟨s, hs, rfl⟩
      obtain ⟨children, hchildren, rfl⟩ := shown_mapping_iff.mp hs
      exact ⟨children, (hentries children).mpr hchildren, rfl⟩
  | tagged u v ih =>
    -- The value is converted under its own tag, and the tag around it is forgotten.
    show ofYaml (some (bareTag u)) key v = .ok t ↔ _
    rw [ih]
    constructor
    · rintro ⟨s, hs, rfl⟩
      exact ⟨_, shown_tagged_iff.mpr ⟨s, hs, rfl⟩, (within_some _ tag s).symm⟩
    · rintro ⟨s, hs, rfl⟩
      obtain ⟨r, hr, rfl⟩ := shown_tagged_iff.mp hs
      exact ⟨r, hr, within_some _ tag r⟩

end SourceTree

/-! ## §5 Places -/

namespace Yaml.Value

/-- A value that stands at a place of another one, behind the names of the place. -/
inductive At : Value → List String → Value → Prop where
  | here {v : Value} : At v [] v
  | tagged {t : String} {v u : Value} {place : List String} (h : At v place u) : At (.tagged t v) place u
  | value {entries : List (Value × Value)} {k v u : Value} {name : String} {place : List String}
      (hv : (k, v) ∈ entries) (hkey : Names k name) (h : At v place u) : At (.mapping entries) (name :: place) u

/-- At the place of the first fault stands what a source may not hold. -/
theorem FirstFault.exists_at {v : Value} {what : Unsupported} {place : List String} (h : FirstFault v what place) :
    ∃ u, At v place u ∧ Offends u := by
  induction h with
  | sequence items => exact ⟨_, .here, .sequence items⟩
  | tagged h ih =>
    obtain ⟨u, hu, hoffends⟩ := ih
    exact ⟨u, .tagged hu, hoffends⟩
  | key hbefore hkey => exact ⟨_, .here, .mappingKey (List.mem_append_right _ List.mem_cons_self) hkey⟩
  | value hbefore hkey h ih =>
    obtain ⟨u, hu, hoffends⟩ := ih
    exact ⟨u, .value (List.mem_append_right _ List.mem_cons_self) hkey hu, hoffends⟩

theorem ShownEntries.exists_of_mem {entries : List (Value × Value)} {children : List (String × SourceTree)}
    (h : ShownEntries entries children) {k v : Value} (hv : (k, v) ∈ entries) {name : String} (hkey : Names k name) :
    ∃ t, (name, t) ∈ children ∧ Shown v t := by
  induction entries generalizing children with
  | nil => cases hv
  | cons e entries ih =>
    cases h with
    | cons hname ht hrest =>
      rcases List.mem_cons.mp hv with heq | hv
      · cases heq
        -- A key gives one name only.
        obtain rfl := (ScalarText.name hkey).unique (.name hname)
        exact ⟨_, List.mem_cons_self, ht⟩
      · obtain ⟨t, hmem, hshown⟩ := ih hrest hv
        exact ⟨t, List.mem_cons_of_mem _ hmem, hshown⟩

/-- A tag around a tree changes no text and no place. -/
theorem exists_placed_within {t : SourceTree} {place : List String} {text : String}
    (h : ∃ tag, (place, ⟨text, tag⟩) ∈ t.placed) (outer : Option String) :
    ∃ tag, (place, ⟨text, tag⟩) ∈ (t.within outer).placed := by
  cases t with
  | branch children => exact h
  | leaf content =>
    obtain ⟨tag, htag⟩ := h
    cases List.mem_singleton.mp htag
    exact ⟨_, List.mem_singleton_self _⟩

/-- A text in a value is a leaf of the tree at the place where it stands. -/
theorem Shown.exists_placed {v u : Value} {place : List String} (hu : At v place u) {text : String}
    (htext : ScalarText u text) {t : SourceTree} (h : Shown v t) : ∃ tag, (place, ⟨text, tag⟩) ∈ t.placed := by
  induction hu generalizing t with
  | here =>
    rw [(shown_scalar_iff htext).mp h]
    exact ⟨none, List.mem_singleton_self _⟩
  | tagged hu ih =>
    obtain ⟨r, hr, rfl⟩ := shown_tagged_iff.mp h
    exact exists_placed_within (ih htext hr) _
  | value hv hkey hu ih =>
    obtain ⟨children, hchildren, rfl⟩ := shown_mapping_iff.mp h
    obtain ⟨t, ht, hshown⟩ := hchildren.exists_of_mem hv hkey
    obtain ⟨tag, htag⟩ := ih htext hshown
    exact ⟨tag, SourceTree.mem_placedOf ht htag⟩

end Yaml.Value

end Phrasebook
