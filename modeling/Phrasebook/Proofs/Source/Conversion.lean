import Phrasebook.Proofs.Source.YamlConversion

/-!
# Which values become sources

In the data format without tags, a value becomes a tree just when no array is in it; otherwise the first array is named,
at the key that a text in its place would have. Together with the values of the other format these are all values that
sources are read from.

## Layers

1. **Arrays**: whether an array occurs in a value, and the first one with the names on the way to it.
2. **Trees**: the tree that shows a value, with the texts of the value at their places.
3. **Conversion**: whether a value fails, with which error, and what it gives, by induction along its fields.
4. **Both formats**: what this means for the values of either format.
-/

namespace Phrasebook

/-! ## §1 Arrays -/

namespace Json

/-- A value without parts, with its text. -/
inductive ScalarText : Json → String → Prop where
  | null : ScalarText .null ""
  | bool (b : Bool) : ScalarText (.bool b) (SourceTree.boolText b)
  | number (n : JsonNumber) : ScalarText (.number n) (String.ofList n.text)
  | string (s : String) : ScalarText (.string s) s

mutual

/-- Induction along the fields of objects. -/
theorem inductionOnFields {motive : Json → Prop} (scalar : ∀ v text, ScalarText v text → motive v)
    (array : ∀ items, motive (.array items))
    (object : ∀ fields, (∀ f ∈ fields, motive f.2) → motive (.object fields)) : (v : Json) → motive v
  | .null => scalar _ _ .null
  | .bool b => scalar _ _ (.bool b)
  | .number n => scalar _ _ (.number n)
  | .string s => scalar _ _ (.string s)
  | .array items => array items
  | .object fields => object fields (inductionOnFields_all scalar array object fields)

theorem inductionOnFields_all {motive : Json → Prop} (scalar : ∀ v text, ScalarText v text → motive v)
    (array : ∀ items, motive (.array items))
    (object : ∀ fields, (∀ f ∈ fields, motive f.2) → motive (.object fields)) :
    (fields : List (String × Json)) → ∀ f ∈ fields, motive f.2
  | [] => List.forall_mem_nil _
  | (_, v) :: fields => List.forall_mem_cons.mpr ⟨inductionOnFields scalar array object v,
      inductionOnFields_all scalar array object fields⟩

end

/-- A value within another one, or the value itself. -/
inductive Occurs (u : Json) : Json → Prop where
  | here : Occurs u u
  | item {items : List Json} {v : Json} (hv : v ∈ items) (h : Occurs u v) : Occurs u (.array items)
  | field {fields : List (String × Json)} {f : String × Json} (hf : f ∈ fields) (h : Occurs u f.2) :
      Occurs u (.object fields)

/-- Somewhere in a value is an array. -/
def HasArray (v : Json) : Prop := ∃ items, Occurs (.array items) v

/-- The first array of a value in the order of the document, with the names on the way to it. -/
inductive FirstArray : Json → List String → Prop where
  | array (items : List Json) : FirstArray (.array items) []
  | field {before behind : List (String × Json)} {name : String} {v : Json} {place : List String}
      (hbefore : ∀ f ∈ before, ¬ HasArray f.2) (h : FirstArray v place) :
      FirstArray (.object (before ++ (name, v) :: behind)) (name :: place)

theorem ScalarText.unique {v : Json} {a b : String} (ha : ScalarText v a) (hb : ScalarText v b) : a = b := by
  cases ha <;> cases hb <;> rfl

theorem ScalarText.not_hasArray {v : Json} {text : String} (h : ScalarText v text) : ¬ HasArray v := by
  rintro ⟨items, hitems⟩
  cases h <;> cases hitems

theorem not_hasArray_object_iff {fields : List (String × Json)} :
    ¬ HasArray (.object fields) ↔ ∀ f ∈ fields, ¬ HasArray f.2 := by
  constructor
  · rintro hsound f hf ⟨items, hitems⟩
    exact hsound ⟨items, .field hf hitems⟩
  · rintro hsound ⟨items, hitems⟩
    cases hitems with
    | field hf h => exact hsound _ hf ⟨items, h⟩

/-- What has an array has a first one. -/
theorem exists_firstArray (v : Json) (h : HasArray v) : ∃ place, FirstArray v place := by
  induction v using inductionOnFields with
  | scalar v text hscalar => exact absurd h hscalar.not_hasArray
  | array items => exact ⟨[], .array items⟩
  | object fields ih =>
    obtain ⟨before, ⟨name, v⟩, behind, rfl, hbefore, hv⟩ :=
      exists_first_of_not_forall fun hsound => not_hasArray_object_iff.mpr hsound h
    obtain ⟨place, hfirst⟩ := ih (name, v) (by simp) (not_not.mp hv)
    exact ⟨name :: place, .field hbefore hfirst⟩

/-! ## §2 Trees -/

mutual

/-- The tree that shows a value. -/
inductive Shown : Json → SourceTree → Prop where
  | scalar {v : Json} {text : String} (htext : ScalarText v text) : Shown v (.leaf ⟨text, none⟩)
  | object {fields : List (String × Json)} {children : List (String × SourceTree)}
      (hfields : ShownFields fields children) : Shown (.object fields) (.branch children)

/-- The children that show the fields of an object, one by one. -/
inductive ShownFields : List (String × Json) → List (String × SourceTree) → Prop where
  | nil : ShownFields [] []
  | cons {name : String} {v : Json} {t : SourceTree} {fields : List (String × Json)}
      {children : List (String × SourceTree)} (h : Shown v t) (hrest : ShownFields fields children) :
      ShownFields ((name, v) :: fields) ((name, t) :: children)

end

/-- A value that stands at a place of another one, behind the names of the place. -/
inductive At : Json → List String → Json → Prop where
  | here {v : Json} : At v [] v
  | field {fields : List (String × Json)} {name : String} {v u : Json} {place : List String}
      (hv : (name, v) ∈ fields) (h : At v place u) : At (.object fields) (name :: place) u

/-- At the place of the first array stands an array. -/
theorem FirstArray.exists_at {v : Json} {place : List String} (h : FirstArray v place) :
    ∃ items, At v place (.array items) := by
  induction h with
  | array items => exact ⟨items, .here⟩
  | field hbefore h ih =>
    obtain ⟨items, hitems⟩ := ih
    exact ⟨items, .field (List.mem_append_right _ List.mem_cons_self) hitems⟩

theorem ShownFields.exists_of_mem {fields : List (String × Json)} {children : List (String × SourceTree)}
    (h : ShownFields fields children) {name : String} {v : Json} (hv : (name, v) ∈ fields) :
    ∃ t, (name, t) ∈ children ∧ Shown v t := by
  induction fields generalizing children with
  | nil => cases hv
  | cons f fields ih =>
    cases h with
    | cons ht hrest =>
      rcases List.mem_cons.mp hv with heq | hv
      · cases heq
        exact ⟨_, List.mem_cons_self, ht⟩
      · obtain ⟨t, hmem, hshown⟩ := ih hrest hv
        exact ⟨t, List.mem_cons_of_mem _ hmem, hshown⟩

/-- A text in a value is a leaf of the tree at the place where it stands. -/
theorem Shown.mem_placed {v u : Json} {place : List String} (hu : At v place u) {text : String}
    (htext : ScalarText u text) {t : SourceTree} (h : Shown v t) : (place, ⟨text, none⟩) ∈ t.placed := by
  -- By induction on the place, one field further down in each step.
  induction hu generalizing t with
  | here =>
    cases h with
    | scalar hscalar =>
      rw [hscalar.unique htext]
      exact List.mem_singleton_self _
    | object => cases htext
  | field hv hu ih =>
    cases h with
    | scalar hscalar => cases hscalar
    | object hfields =>
      obtain ⟨t, ht, hshown⟩ := hfields.exists_of_mem hv
      exact SourceTree.mem_placedOf ht (ih htext hshown)

end Json

/-! ## §3 Conversion -/

namespace SourceTree

open Json

theorem ofJsonFields_cons (key name : String) (v : Json) (fs : List (String × Json)) :
    ofJsonFields key ((name, v) :: fs) =
      (ofJson (childKey key name) v >>= fun t => (ofJsonFields key fs).map ((name, t) :: ·)) := by
  rw [ofJsonFields]
  cases ofJson (childKey key name) v <;> rfl

theorem ofJson_of_scalarText {v : Json} {text : String} (h : Json.ScalarText v text) (key : String) :
    ofJson key v = .ok (.leaf ⟨text, none⟩) := by
  cases h <;> rfl

theorem exists_ofJsonFields {fs : List (String × Json)} (key : String)
    (h : ∀ f ∈ fs, ∀ key, ∃ t, ofJson key f.2 = .ok t) : ∃ ts, ofJsonFields key fs = .ok ts := by
  induction fs with
  | nil => exact ⟨[], rfl⟩
  | cons f fs ih =>
    rw [List.forall_mem_cons] at h
    obtain ⟨t, ht⟩ := h.1 (childKey key f.1)
    obtain ⟨ts, hts⟩ := ih h.2
    exact ⟨(f.1, t) :: ts, by rw [ofJsonFields_cons, ht, hts]; rfl⟩

/-- What has no array becomes a tree. -/
theorem exists_ofJson {v : Json} (h : ¬ v.HasArray) (key : String) : ∃ t, ofJson key v = .ok t := by
  induction v using inductionOnFields generalizing key with
  | scalar v text hscalar => exact ⟨_, ofJson_of_scalarText hscalar key⟩
  | array items => exact absurd ⟨items, .here⟩ h
  | object fields ih =>
    have hsound := not_hasArray_object_iff.mp h
    obtain ⟨ts, hts⟩ := exists_ofJsonFields key fun f hf key => ih f hf (hsound f hf) key
    exact ⟨.branch ts, map_eq_ok.mpr ⟨ts, hts, rfl⟩⟩

/-- Behind fields without arrays, the error is that of the fields after them. -/
theorem ofJsonFields_error {before : List (String × Json)} (h : ∀ f ∈ before, ¬ HasArray f.2) {key : String}
    {fs : List (String × Json)} {error : SourceError} (hfs : ofJsonFields key fs = .error error) :
    ofJsonFields key (before ++ fs) = .error error := by
  induction before with
  | nil => exact hfs
  | cons f before ih =>
    -- The first field becomes a tree, so the error is that of the other fields.
    rw [List.forall_mem_cons] at h
    obtain ⟨t, ht⟩ := exists_ofJson h.1 (childKey key f.1)
    rw [List.cons_append, ofJsonFields_cons, ht]
    exact map_eq_error.mpr (ih h.2)

/-- The first array of a value is its error, with the key of its place. -/
theorem ofJson_of_firstArray {v : Json} {place : List String} (h : FirstArray v place) (key : String) :
    ofJson key v = .error (.unsupported .array (place.foldl childKey key)) := by
  induction h generalizing key with
  | array items => rfl
  | field hbefore h ih =>
    apply map_eq_error.mpr
    apply ofJsonFields_error hbefore
    rw [ofJsonFields_cons, ih]
    rfl

theorem ofJson_fails_iff {v : Json} {key : String} : (∃ e, ofJson key v = .error e) ↔ v.HasArray := by
  refine fails_iff_of_not (fun h => exists_ofJson h key) fun h => ?_
  obtain ⟨place, hfirst⟩ := exists_firstArray v h
  exact ⟨_, ofJson_of_firstArray hfirst key⟩

/-- A value fails with its first array, and with no other error. -/
theorem ofJson_eq_error_iff {v : Json} {key : String} {e : SourceError} :
    ofJson key v = .error e ↔ ∃ place, FirstArray v place ∧ e = .unsupported .array (place.foldl childKey key) := by
  apply eq_error_iff_of_exists
  · rintro e ⟨place, hfirst, rfl⟩
    exact ofJson_of_firstArray hfirst key
  · intro h
    obtain ⟨place, hfirst⟩ := exists_firstArray v (ofJson_fails_iff.mp h)
    exact ⟨_, place, hfirst, rfl⟩

theorem shownFields_iff {fs : List (String × Json)} (key : String)
    (h : ∀ f ∈ fs, ∀ key t, ofJson key f.2 = .ok t ↔ f.2.Shown t) {ts : List (String × SourceTree)} :
    ofJsonFields key fs = .ok ts ↔ ShownFields fs ts := by
  -- By induction on the fields; for their values, the statement is given.
  induction fs generalizing ts with
  | nil =>
    constructor
    · intro hts
      rw [← Except.ok.inj hts]
      exact .nil
    · intro hts
      cases hts
      rfl
  | cons f fs ih =>
    obtain ⟨name, v⟩ := f
    rw [List.forall_mem_cons] at h
    constructor
    · intro hts
      rw [ofJsonFields_cons] at hts
      obtain ⟨t, ht, hrest⟩ := bind_eq_ok.mp hts
      obtain ⟨ts', hts', rfl⟩ := map_eq_ok.mp hrest
      exact .cons ((h.1 _ t).mp ht) ((ih h.2).mp hts')
    · intro hts
      cases hts with
      | cons ht hrest =>
        rw [ofJsonFields_cons, (h.1 _ _).mpr ht, (ih h.2).mpr hrest]
        rfl

/-- The tree of a value is the one that shows it. -/
theorem ofJson_eq_ok_iff {v : Json} {key : String} {t : SourceTree} : ofJson key v = .ok t ↔ v.Shown t := by
  induction v using inductionOnFields generalizing key t with
  | scalar v text hscalar =>
    rw [ofJson_of_scalarText hscalar]
    constructor
    · intro h
      rw [← Except.ok.inj h]
      exact .scalar hscalar
    · intro h
      cases h with
      | scalar htext => rw [htext.unique hscalar]
      | object => cases hscalar
  -- No rule shows a list.
  | array items =>
    refine iff_of_false (fun h => by cases h) fun h => ?_
    cases h with
    | scalar htext => cases htext
  | object fields ih =>
    have hfields : ∀ ts, ofJsonFields key fields = .ok ts ↔ ShownFields fields ts :=
      fun ts => shownFields_iff key fun f hf key t => ih f hf
    show (ofJsonFields key fields).map .branch = .ok t ↔ _
    rw [map_eq_ok]
    constructor
    · rintro ⟨ts, hts, rfl⟩
      exact .object ((hfields ts).mp hts)
    · intro h
      cases h with
      | scalar htext => cases htext
      | object h => exact ⟨_, (hfields _).mpr h, rfl⟩

/-! ## §4 Both formats -/

/-- The leaves of a tree are entered with the keys of their places. -/
theorem mem_leaves_of_mem_placed {t : SourceTree} {place : List String} {content : Leaf}
    (h : (place, content) ∈ t.placed) : (dotted place, content) ∈ t.leaves := by
  rw [leaves_eq]
  exact List.mem_map_of_mem h

/-- **Conversion**: a value becomes a tree just when nothing in it is a sequence or a mapping with a key that gives no
name, or in the other format nothing is an array. The error is the first fault in the order of the document, with the
key of its place, which is the one that a text at the place is entered with; the tree is the one that shows the value. -/
theorem conversion (v : Yaml.Value) (w : Json) :
    (((∃ e, ofYaml none "" v = .error e) ↔ ∃ u : Yaml.Value, u.Occurs v ∧ u.Offends) ∧
      (∀ e, ofYaml none "" v = .error e ↔
        ∃ what place, v.FirstFault what place ∧ e = .unsupported what (dotted place)) ∧
      (∀ what place, v.FirstFault what place → ∃ u, v.At place u ∧ u.Offends) ∧
      ∀ t, (ofYaml none "" v = .ok t ↔ v.Shown t) ∧
        ∀ place u text, ofYaml none "" v = .ok t → v.At place u → u.ScalarText text →
          ∃ tag, (dotted place, ⟨text, tag⟩) ∈ t.leaves) ∧
    ((∃ e, ofJson "" w = .error e) ↔ ∃ items, (Json.array items).Occurs w) ∧
      (∀ e, ofJson "" w = .error e ↔ ∃ place, w.FirstArray place ∧ e = .unsupported .array (dotted place)) ∧
      (∀ place, w.FirstArray place → ∃ items, w.At place (.array items)) ∧
      ∀ t, (ofJson "" w = .ok t ↔ w.Shown t) ∧
        ∀ place u text, ofJson "" w = .ok t → w.At place u → u.ScalarText text →
          (dotted place, ⟨text, none⟩) ∈ t.leaves := by
  -- No tag stands around the value of a document.
  have hyaml : ∀ t, ofYaml none "" v = .ok t ↔ v.Shown t := fun t => by
    simp only [ofYaml_eq_ok_iff, Yaml.Value.within_none, exists_eq_right']
  refine ⟨⟨ofYaml_fails_iff, fun e => ?_, fun _ _ h => h.exists_at, fun t => ⟨hyaml t, fun place u text ht hu htext => ?_⟩⟩,
    ofJson_fails_iff, fun e => ?_, fun _ h => h.exists_at,
    fun t => ⟨ofJson_eq_ok_iff, fun place u text ht hu htext => ?_⟩⟩
  · -- The key that the conversion carries is that of the leaves, the names joined by dots.
    simp only [ofYaml_eq_error_iff, foldl_childKey]
  · obtain ⟨tag, htag⟩ := ((hyaml t).mp ht).exists_placed hu htext
    exact ⟨tag, mem_leaves_of_mem_placed htag⟩
  · simp only [ofJson_eq_error_iff, foldl_childKey]
  · exact mem_leaves_of_mem_placed ((ofJson_eq_ok_iff.mp ht).mem_placed hu htext)

/-- A sequence under a tag, behind an entry that a source may hold; then a text in its place; then an array. -/
theorem conversion_nested :
    ofYaml none "" (.mapping [(.string "a.b", .mapping [(.bool true, .tagged "!x" .null),
      (.string "c", .tagged "!y" (.sequence []))])]) = .error (.unsupported .sequence "a.b.c") ∧
    (∃ t tag, ofYaml none "" (.mapping [(.string "a.b", .mapping [(.string "c", .tagged "!y" (.string "t"))])]) = .ok t ∧
      ("a.b.c", ⟨"t", tag⟩) ∈ t.leaves) ∧
    ofJson "" (.object [("", .object [("k", .array [])])]) = .error (.unsupported .array "k") := by
  have hkey : dotted ["a.b", "c"] = "a.b.c" := by decide +kernel
  refine ⟨?_, ?_, ?_⟩
  -- What stands in front of the fault is sound, under whatever key it stands.
  · have hsound : Yaml.Value.SoundEntry (.bool true, .tagged "!x" .null) :=
      ⟨⟨_, .bool true⟩, fun h => Yaml.Value.ScalarText.null.not_faulty (Yaml.Value.faulty_tagged_iff.mp h)⟩
    refine ((conversion _ .null).1.2.1 _).mpr ⟨.sequence, ["a.b", "c"], ?_, congrArg _ hkey.symm⟩
    apply Yaml.Value.FirstFault.value (List.forall_mem_nil _) (.string "a.b")
    apply Yaml.Value.FirstFault.value (List.forall_mem_singleton.mpr hsound) (.string "c")
    exact .tagged (.sequence [])
  · obtain ⟨t, ht⟩ : ∃ t, ofYaml none "" (.mapping [(.string "a.b", .mapping [(.string "c", .tagged "!y" (.string "t"))])])
        = .ok t := ⟨_, rfl⟩
    have hat : Yaml.Value.At (.mapping [(.string "a.b", .mapping [(.string "c", .tagged "!y" (.string "t"))])])
        ["a.b", "c"] (.string "t") :=
      .value List.mem_cons_self (.string "a.b") (.value List.mem_cons_self (.string "c") (.tagged .here))
    obtain ⟨tag, htag⟩ := ((conversion _ .null).1.2.2.2 t).2 _ _ _ ht hat (.name (.string "t"))
    exact ⟨t, tag, ht, hkey ▸ htag⟩
  · have hplace : dotted ["", "k"] = "k" := by decide +kernel
    refine ((conversion .null _).2.2.1 _).mpr ⟨["", "k"], ?_, congrArg _ hplace.symm⟩
    apply FirstArray.field (List.forall_mem_nil _)
    apply FirstArray.field (List.forall_mem_nil _)
    exact .array []

end SourceTree

end Phrasebook
