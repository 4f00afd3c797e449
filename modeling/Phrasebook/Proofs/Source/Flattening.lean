import Phrasebook.Proofs.KeyMap
import Phrasebook.Proofs.Traverse
import Phrasebook.Source.Reader
import Mathlib.Data.List.Nodup

/-!
# Leaves and keys of a source

The key of a leaf is made of the names on the way to it, so leaves at different places may have one key: names may
hold dots themselves, and empty names at the start leave no trace. Of leaves with one key the last one is kept.

## Layers

- `SourceTree.placed`: the leaves with the names on the way to them; `leaves_eq` makes these names keys.
- `dottedParts`: what can be told from a key of the names it is made of; `dotted_eq_iff` says that it is all.
- `get?_flatten_iff` and `size_flatten_iff`: which leaves are kept.
- `Json.NamesDistinct`: a value that was read has no name twice in one object, so in its tree all places differ
  (`places_nodup_of_readJson`).
- `read_flatten`: the leaves of a source and what is kept of them.
-/

namespace Phrasebook

open Phrasebook.Text

/-! ## §1 Places -/

namespace SourceTree

mutual

/-- The leaves of a tree with the names on the way to them, in the order of the document. -/
def placed : SourceTree → List (List String × Leaf)
  | .leaf content => [([], content)]
  | .branch children => placedOf children
termination_by structural t => t

def placedOf : List (String × SourceTree) → List (List String × Leaf)
  | [] => []
  | (name, t) :: ts => (placed t).map (fun e => (name :: e.1, e.2)) ++ placedOf ts
termination_by structural ts => ts

end

/-- The leaves of a child have its name in front of their places. -/
theorem mem_placedOf {ts : List (String × SourceTree)} {name : String} {t : SourceTree} (ht : (name, t) ∈ ts)
    {place : List String} {content : Leaf} (h : (place, content) ∈ t.placed) :
    (name :: place, content) ∈ placedOf ts := by
  induction ts with
  | nil => cases ht
  | cons t' ts ih =>
    rw [placedOf]
    rcases List.mem_cons.mp ht with rfl | ht
    · exact List.mem_append_left _ (List.mem_map_of_mem (f := fun e => (name :: e.1, e.2)) h)
    · exact List.mem_append_right _ (ih ht)

/-- The places of the leaves. -/
def places (t : SourceTree) : List (List String) := t.placed.map (·.1)

mutual

theorem leavesAt_eq (key : String) : (t : SourceTree) →
    leavesAt key t = (placed t).map fun e => (e.1.foldl childKey key, e.2)
  | .leaf _ => rfl
  | .branch children => leavesOf_eq key children

theorem leavesOf_eq (key : String) : (ts : List (String × SourceTree)) →
    leavesOf key ts = (placedOf ts).map fun e => (e.1.foldl childKey key, e.2)
  | [] => rfl
  | (name, t) :: ts => by
    rw [leavesOf, placedOf, leavesAt_eq (childKey key name) t, leavesOf_eq key ts, List.map_append, List.map_map]
    rfl

end

end SourceTree

/-! ## §2 Keys -/

/-- The key of a place: its names with dots between them, without the empty names that it starts with. -/
def dotted (place : List String) : String := join "." (place.dropWhile String.isEmpty)

theorem join_cons_cons (sep a b : String) (parts : List String) :
    join sep (a :: b :: parts) = join sep ((a ++ sep ++ b) :: parts) := by
  unfold join
  congr 1
  cases parts with
  | nil => simp [List.intercalate_cons_cons]
  | cons c parts => simp [List.intercalate_cons_cons]

theorem join_singleton (sep a : String) : join sep [a] = a := by
  simp [join]

theorem foldl_childKey_of_ne {key : String} (h : key ≠ "") (place : List String) :
    place.foldl childKey key = join "." (key :: place) := by
  induction place generalizing key with
  | nil => rw [List.foldl_nil, join_singleton]
  | cons name place ih =>
    have hkey : childKey key name = key ++ "." ++ name := by
      rw [childKey, if_neg (by simpa using h)]
    have hne : key ++ "." ++ name ≠ "" := by simp
    rw [List.foldl_cons, hkey, ih hne, join_cons_cons]

theorem foldl_childKey (place : List String) : place.foldl childKey "" = dotted place := by
  induction place with
  | nil => rfl
  | cons name place ih =>
    have hkey : childKey "" name = name := if_pos rfl
    rw [List.foldl_cons, hkey]
    by_cases h : name = ""
    · subst h
      exact ih
    · rw [foldl_childKey_of_ne h, dotted, List.dropWhile_cons_of_neg (by simpa using h)]

/-- The leaves of a tree have the keys of their places. -/
theorem SourceTree.leaves_eq (t : SourceTree) : t.leaves = t.placed.map fun e => (dotted e.1, e.2) := by
  rw [leaves, leavesAt_eq]
  simp only [foldl_childKey]

/-- The parts of a key between its dots, as they come from the names of a place. -/
def dottedParts (place : List String) : List (List Char) :=
  (place.dropWhile String.isEmpty).flatMap fun name => name.toList.splitOn '.'

theorem splitOn_intercalate_dot {names : List (List Char)} (h : names ≠ []) :
    (['.'].intercalate names).splitOn '.' = names.flatMap fun name => name.splitOn '.' := by
  induction names with
  | nil => exact absurd rfl h
  | cons name names ih =>
    cases names with
    | nil => rw [List.intercalate_singleton, List.flatMap_singleton]
    | cons next names =>
      rw [List.intercalate_cons_cons, List.append_assoc, List.singleton_append, List.splitOn_append_cons_self,
        ih (List.cons_ne_nil next names)]
      rfl

theorem toList_dotted (place : List String) :
    (dotted place).toList = ['.'].intercalate ((place.dropWhile String.isEmpty).map String.toList) := by
  rw [dotted, join, String.toList_ofList]
  rfl

theorem dotted_eq_empty_iff {place : List String} : dotted place = "" ↔ place.dropWhile String.isEmpty = [] := by
  rw [← String.toList_eq_nil_iff, toList_dotted]
  cases hnames : place.dropWhile String.isEmpty with
  | nil => simp
  | cons name names =>
    -- The first name that is left is not empty.
    have hname : name ≠ "" := by
      have hhead := List.head?_dropWhile_not String.isEmpty place
      rw [hnames] at hhead
      simpa using hhead
    refine iff_of_false (fun hnil => ?_) (List.cons_ne_nil name names)
    cases names with
    | nil => exact hname (by simpa using hnil)
    | cons next names => simp [List.intercalate_cons_cons] at hnil

theorem dottedParts_of_dotted_ne {place : List String} (h : dotted place ≠ "") :
    dottedParts place = (dotted place).toList.splitOn '.' := by
  have hnames : (place.dropWhile String.isEmpty).map String.toList ≠ [] :=
    fun hnil => h (dotted_eq_empty_iff.mpr (List.map_eq_nil_iff.mp hnil))
  rw [toList_dotted, splitOn_intercalate_dot hnames, List.flatMap_map]
  rfl

theorem dottedParts_of_dotted_eq {place : List String} (h : dotted place = "") : dottedParts place = [] := by
  rw [dottedParts, dotted_eq_empty_iff.mp h, List.flatMap_nil]

/-- Places have one key exactly when their names are the same once they are cut at their dots. -/
theorem dotted_eq_iff {place place' : List String} :
    dotted place = dotted place' ↔ dottedParts place = dottedParts place' := by
  -- The parts make the key again.
  have hback : ∀ place, (dotted place).toList = ['.'].intercalate (dottedParts place) := by
    intro place
    by_cases h : dotted place = ""
    · rw [h, dottedParts_of_dotted_eq h]
      rfl
    · rw [dottedParts_of_dotted_ne h, List.intercalate_splitOn]
  refine ⟨fun h => ?_, fun h => ?_⟩
  · by_cases hempty : dotted place = ""
    · rw [dottedParts_of_dotted_eq hempty, dottedParts_of_dotted_eq (h ▸ hempty)]
    · rw [dottedParts_of_dotted_ne hempty, dottedParts_of_dotted_ne (h ▸ hempty), h]
  · rw [← String.toList_inj, hback, hback, h]

/-- Names that are not empty and have no dots are the parts of their key. -/
theorem dottedParts_of_plain {place : List String} (h : ∀ name ∈ place, name ≠ "" ∧ '.' ∉ name.toList) :
    dottedParts place = place.map String.toList := by
  have hdrop : place.dropWhile String.isEmpty = place := by
    cases place with
    | nil => rfl
    | cons name place => exact List.dropWhile_cons_of_neg (by simpa using (h name List.mem_cons_self).1)
  rw [dottedParts, hdrop]
  clear hdrop
  induction place with
  | nil => rfl
  | cons name place ih =>
    have hname := (h name List.mem_cons_self).2
    rw [List.flatMap_cons, List.splitOn_eq_singleton hname, List.map_cons, List.singleton_append,
      ih fun n hn => h n (List.mem_cons_of_mem name hn)]

/-! ## §3 Entries -/

namespace SourceTree

/-- A key has the last leaf of the document that has it. -/
theorem get?_flatten_iff {t : SourceTree} {key : String} {leaf : Leaf} :
    t.flatten.get? key = some leaf ↔
      ∃ before place behind, t.placed = before ++ (place, leaf) :: behind ∧ dotted place = key ∧
        ∀ e ∈ behind, dotted e.1 ≠ key := by
  rw [flatten, KeyMap.get?_ofList_eq_some_iff_last, leaves_eq]
  refine ⟨fun h => ?_, fun h => ?_⟩
  · obtain ⟨before, behind, hsplit, hbehind⟩ := h
    obtain ⟨before, rest, hplaced, rfl, hrest⟩ := List.map_eq_append_iff.mp hsplit
    obtain ⟨⟨place, l⟩, behind, rfl, he, rfl⟩ := List.map_eq_cons_iff.mp hrest
    obtain ⟨rfl, rfl⟩ := Prod.mk.inj he
    exact ⟨before, place, behind, hplaced, rfl, fun e he => hbehind _ (List.mem_map_of_mem he)⟩
  · obtain ⟨before, place, behind, hplaced, rfl, hbehind⟩ := h
    rw [hplaced, List.map_append, List.map_cons]
    refine ⟨_, _, rfl, fun e he => ?_⟩
    obtain ⟨e', he', rfl⟩ := List.mem_map.mp he
    exact hbehind e' he'

/-- No leaf is lost exactly when the places differ in their parts. -/
theorem size_flatten_iff {t : SourceTree} :
    t.flatten.size = t.placed.length ↔ (t.places.map dottedParts).Nodup := by
  have hlength : t.leaves.length = t.placed.length := by rw [leaves_eq, List.length_map]
  have hkeys : t.leaves.map (·.1) = t.places.map dotted := by
    rw [leaves_eq, places, List.map_map, List.map_map]
    rfl
  rw [← hlength, flatten, KeyMap.size_ofList_eq_length_iff, hkeys]
  simp only [List.Nodup, List.pairwise_map, ne_eq, dotted_eq_iff]

/-- Then each leaf is found at its key. -/
theorem get?_flatten_of_nodup {t : SourceTree} (h : (t.places.map dottedParts).Nodup) {place : List String}
    {leaf : Leaf} (hmem : (place, leaf) ∈ t.placed) : t.flatten.get? (dotted place) = some leaf := by
  obtain ⟨before, behind, hplaced⟩ := List.append_of_mem hmem
  refine get?_flatten_iff.mpr ⟨before, place, behind, hplaced, rfl, fun e he heq => ?_⟩
  rw [places, hplaced, List.map_append, List.map_append, List.nodup_append] at h
  have hcons := h.2.1
  rw [List.map_cons, List.map_cons, List.nodup_cons] at hcons
  exact hcons.1 (dotted_eq_iff.mp heq ▸ List.mem_map_of_mem (List.mem_map_of_mem he))

theorem nodup_dottedParts_of_plain {t : SourceTree} (hplaces : t.places.Nodup)
    (hplain : ∀ place ∈ t.places, ∀ name ∈ place, name ≠ "" ∧ '.' ∉ name.toList) :
    (t.places.map dottedParts).Nodup := by
  rw [List.map_congr_left fun place hplace => dottedParts_of_plain (hplain place hplace)]
  exact hplaces.map (List.map_injective_iff.mpr fun a b hab => String.toList_inj.mp hab)

end SourceTree

/-! ## §4 Names of objects -/

namespace Json

mutual

/-- No object of a value has a name twice. -/
def NamesDistinct : Json → Prop
  | .object fields => (fields.map (·.1)).Nodup ∧ FieldsDistinct fields
  | _ => True
termination_by structural v => v

def FieldsDistinct : List (String × Json) → Prop
  | [] => True
  | (_, v) :: fs => NamesDistinct v ∧ FieldsDistinct fs
termination_by structural fs => fs

end

theorem fieldsDistinct_iff {fs : List (String × Json)} : FieldsDistinct fs ↔ ∀ f ∈ fs, NamesDistinct f.2 := by
  induction fs with
  | nil => simp [FieldsDistinct]
  | cons f fs ih => rw [FieldsDistinct, List.forall_mem_cons, ih]

theorem names_setField (name : String) (value : Json) (fs : List (String × Json)) :
    (setField name value fs).map (·.1)
      = if name ∈ fs.map (·.1) then fs.map (·.1) else fs.map (·.1) ++ [name] := by
  induction fs with
  | nil => rfl
  | cons f fs ih =>
    obtain ⟨n, v⟩ := f
    by_cases h : n = name
    · simp [setField, h]
    · simp only [setField, if_neg h, List.map_cons, ih, List.mem_cons, Ne.symm h, false_or]
      split <;> rfl

theorem mem_setField {name : String} {value : Json} {fs : List (String × Json)} {f : String × Json}
    (h : f ∈ setField name value fs) : f.2 = value ∨ f ∈ fs := by
  induction fs with
  | nil => exact .inl (by rw [List.mem_singleton.mp h])
  | cons f' fs ih =>
    obtain ⟨n, v⟩ := f'
    rw [setField] at h
    split at h
    · rcases List.mem_cons.mp h with rfl | h
      · exact .inl rfl
      · exact .inr (List.mem_cons_of_mem _ h)
    · rcases List.mem_cons.mp h with rfl | h
      · exact .inr List.mem_cons_self
      · exact (ih h).imp_right (List.mem_cons_of_mem _)

/-- Setting a field keeps the names distinct. -/
theorem NamesDistinct.setField {fs : List (String × Json)} (h : NamesDistinct (.object fs)) (name : String)
    {value : Json} (hvalue : value.NamesDistinct) : NamesDistinct (.object (setField name value fs)) := by
  obtain ⟨hnames, hfields⟩ := h
  refine ⟨?_, fieldsDistinct_iff.mpr fun f hf => ?_⟩
  · rw [names_setField]
    split
    · exact hnames
    · rename_i hnew
      exact (List.nodup_append_comm.mp (List.nodup_cons.mpr ⟨hnew, hnames⟩))
  · rcases mem_setField hf with hset | hold
    · exact hset ▸ hvalue
    · exact fieldsDistinct_iff.mp hfields f hold

end Json

namespace JsonSyntax

mutual

theorem namesDistinct_of_toJson? {depth : Nat} {v : Json} :
    (s : JsonSyntax) → toJson? depth s = some v → v.NamesDistinct
  | .null, h => by
    obtain rfl := Option.some.inj h
    trivial
  | .bool _, h => by
    obtain rfl := Option.some.inj h
    trivial
  | .number n, h => by
    obtain ⟨_, -, rfl⟩ := Option.map_eq_some_iff.mp h
    trivial
  | .string ps, h => by
    obtain ⟨_, -, rfl⟩ := Option.map_eq_some_iff.mp h
    trivial
  | .array items, h => by
    rw [toJson?] at h
    split at h
    · cases h
    · obtain ⟨_, -, rfl⟩ := Option.map_eq_some_iff.mp h
      trivial
  | .object members, h => by
    rw [toJson?] at h
    split at h
    · cases h
    · obtain ⟨fields, hfields, rfl⟩ := Option.map_eq_some_iff.mp h
      exact namesDistinct_of_membersToJson? members hfields ⟨List.nodup_nil, trivial⟩

theorem namesDistinct_of_membersToJson? {depth : Nat} {fields fields' : List (String × Json)} :
    (ms : List (List Piece × JsonSyntax)) → membersToJson? depth fields ms = some fields' →
      (Json.object fields).NamesDistinct → (Json.object fields').NamesDistinct
  | [], h, hfields => Option.some.inj h ▸ hfields
  | (name, s) :: ms, h, hfields => by
    rw [membersToJson?] at h
    split at h
    · -- A name that comes again changes the value of its field and adds none.
      rename_i hs
      exact namesDistinct_of_membersToJson? ms h (hfields.setField _ (namesDistinct_of_toJson? s hs))
    · cases h

end

end JsonSyntax

theorem Json.namesDistinct_of_read? {text : String} {v : Json} (h : Json.read? text = some v) : v.NamesDistinct := by
  obtain ⟨s, -, hs⟩ := Option.bind_eq_some_iff.mp h
  exact JsonSyntax.namesDistinct_of_toJson? s hs

/-! ## §5 Places of objects -/

namespace SourceTree

theorem exists_name_of_mem_placedOf {ts : List (String × SourceTree)} {e : List String × Leaf} (h : e ∈ placedOf ts) :
    ∃ name ∈ ts.map (·.1), ∃ place, e.1 = name :: place := by
  induction ts with
  | nil => cases h
  | cons t ts ih =>
    obtain ⟨name, t⟩ := t
    rw [placedOf, List.mem_append, List.mem_map] at h
    rcases h with ⟨e, -, rfl⟩ | hrest
    · exact ⟨name, List.mem_cons_self, e.1, rfl⟩
    · obtain ⟨name', hname', hplace⟩ := ih hrest
      exact ⟨name', List.mem_cons_of_mem name hname', hplace⟩

/-- Children of different names have different places. -/
theorem nodup_placedOf_cons {name : String} {t : SourceTree} {ts : List (String × SourceTree)}
    (hname : name ∉ ts.map (·.1)) (ht : t.places.Nodup) (hts : ((placedOf ts).map (·.1)).Nodup) :
    ((placedOf ((name, t) :: ts)).map (·.1)).Nodup := by
  rw [placedOf, List.map_append, List.map_map, List.nodup_append]
  refine ⟨?_, hts, ?_⟩
  · have hcons := ht.map (List.cons_injective (a := name))
    rw [places, List.map_map] at hcons
    exact hcons
  · rintro place hplace other hother rfl
    obtain ⟨e, -, rfl⟩ := List.mem_map.mp hplace
    obtain ⟨e', he', heq⟩ := List.mem_map.mp hother
    obtain ⟨name', hname', place, hplace'⟩ := exists_name_of_mem_placedOf he'
    obtain ⟨rfl, -⟩ := List.cons.inj (hplace'.symm.trans heq)
    exact hname hname'

mutual

theorem places_nodup_of_ofJson {key : String} {t : SourceTree} :
    (v : Json) → v.NamesDistinct → ofJson key v = .ok t → t.places.Nodup
  | .object fields, hv, h => by
    obtain ⟨ts, hts, rfl⟩ := map_eq_ok.mp h
    exact (places_nodup_of_ofJsonFields fields hv.1 hv.2 hts).2
  | .null, _, h => Except.ok.inj h ▸ List.nodup_singleton []
  | .bool _, _, h => Except.ok.inj h ▸ List.nodup_singleton []
  | .number _, _, h => Except.ok.inj h ▸ List.nodup_singleton []
  | .string _, _, h => Except.ok.inj h ▸ List.nodup_singleton []
  | .array _, _, h => by cases h

theorem places_nodup_of_ofJsonFields {key : String} {ts : List (String × SourceTree)} :
    (fs : List (String × Json)) → (fs.map (·.1)).Nodup → Json.FieldsDistinct fs → ofJsonFields key fs = .ok ts →
      ts.map (·.1) = fs.map (·.1) ∧ ((placedOf ts).map (·.1)).Nodup
  | [], _, _, h => Except.ok.inj h ▸ ⟨rfl, List.nodup_nil⟩
  | (name, v) :: fs, hnames, hfields, h => by
    rw [ofJsonFields] at h
    split at h
    · cases h
    · rename_i t ht
      obtain ⟨ts, hts, rfl⟩ := map_eq_ok.mp h
      rw [List.map_cons, List.nodup_cons] at hnames
      obtain ⟨hkept, hnodup⟩ := places_nodup_of_ofJsonFields fs hnames.2 hfields.2 hts
      refine ⟨by rw [List.map_cons, List.map_cons, hkept], ?_⟩
      exact nodup_placedOf_cons (hkept ▸ hnames.1) (places_nodup_of_ofJson v hfields.1 ht) hnodup

end

/-- In a source without tags no two leaves have one place. -/
theorem places_nodup_of_readJson {text : String} {t : SourceTree} (h : readJson text = .ok t) : t.places.Nodup := by
  unfold readJson at h
  split at h
  · exact Except.ok.inj h ▸ List.nodup_nil
  · split at h
    · cases h
    · exact Except.ok.inj h ▸ List.nodup_nil
    · rename_i v _ hv
      exact places_nodup_of_ofJson _ (Json.namesDistinct_of_read? hv) h

/-! ## §6 Sources -/

/-- **Flattening** a source keeps, at each key, the last leaf of the document that has it. No leaf is lost exactly when
the places of the leaves differ once their names are cut at dots; so it is when no name is empty or has a dot and no
two leaves have one place, which they never have in a source without tags. -/
theorem read_flatten {format : SourceFormat} {text : String} {tree : SourceTree} (h : read format text = .ok tree) :
    (∀ key leaf, tree.flatten.get? key = some leaf ↔
      ∃ before place behind, tree.placed = before ++ (place, leaf) :: behind ∧ dotted place = key ∧
        ∀ e ∈ behind, dotted e.1 ≠ key) ∧
    (tree.flatten.size = tree.placed.length ↔ (tree.places.map dottedParts).Nodup) ∧
    ((∀ place ∈ tree.places, ∀ name ∈ place, name ≠ "" ∧ '.' ∉ name.toList) →
      format = .json ∨ tree.places.Nodup →
        tree.flatten.size = tree.placed.length ∧
          ∀ place leaf, (place, leaf) ∈ tree.placed → tree.flatten.get? (dotted place) = some leaf) := by
  refine ⟨fun key leaf => get?_flatten_iff, size_flatten_iff, fun hplain hformat => ?_⟩
  -- An object has each name once; in the other format, this is asked for.
  have hplaces : tree.places.Nodup := by
    rcases hformat with rfl | hplaces
    · exact places_nodup_of_readJson h
    · exact hplaces
  have hnodup := nodup_dottedParts_of_plain hplaces hplain
  exact ⟨size_flatten_iff.mpr hnodup, fun place leaf => get?_flatten_of_nodup hnodup⟩

/-- A text is read when something can be computed of its tree. -/
theorem exists_read {α : Type} (format : SourceFormat) (text : String) (f : SourceTree → α) {a : α}
    (h : (read format text).toOption.map f = some a) : ∃ tree, read format text = .ok tree ∧ f tree = a := by
  obtain ⟨tree, htree, rfl⟩ := Option.map_eq_some_iff.mp h
  cases hread : read format text with
  | error e =>
    rw [hread] at htree
    cases htree
  | ok t =>
    rw [hread] at htree
    exact ⟨tree, congrArg _ (Option.some.inj htree), rfl⟩

theorem read_flatten_nested :
    ∃ tree, read .json "\x7b\"a\":\x7b\"b\":\"x\"\x7d,\"c\":\"y\"\x7d" = .ok tree ∧
      tree.flatten.size = 2 ∧ tree.flatten.get? "a.b" = some ⟨"x", none⟩ := by
  obtain ⟨tree, hread, hplaced⟩ := exists_read .json "\x7b\"a\":\x7b\"b\":\"x\"\x7d,\"c\":\"y\"\x7d" placed
    (a := [(["a", "b"], ⟨"x", none⟩), (["c"], ⟨"y", none⟩)]) (by decide +kernel)
  have hplain : ∀ place ∈ tree.places, ∀ name ∈ place, name ≠ "" ∧ '.' ∉ name.toList := by
    rw [places, hplaced]
    decide
  obtain ⟨hsize, hget⟩ := (read_flatten hread).2.2 hplain (.inl rfl)
  exact ⟨tree, hread, by rw [hsize, hplaced]; rfl, hget ["a", "b"] _ (by rw [hplaced]; decide)⟩

/-- A dot in a name makes two leaves one entry, and the first of their texts is lost. -/
theorem read_flatten_not_lossless :
    ∃ tree, read .yaml "a.b: x\na:\n  b: y\n" = .ok tree ∧
      tree.placed = [(["a.b"], ⟨"x", none⟩), (["a", "b"], ⟨"y", none⟩)] ∧
      tree.flatten.entries = [("a.b", ⟨"y", none⟩)] := by
  obtain ⟨tree, hread, hboth⟩ := exists_read .yaml "a.b: x\na:\n  b: y\n"
    (fun tree => (tree.placed, tree.flatten.entries))
    (a := ([(["a.b"], ⟨"x", none⟩), (["a", "b"], ⟨"y", none⟩)], [("a.b", ⟨"y", none⟩)])) (by decide +kernel)
  obtain ⟨hplaced, hentries⟩ := Prod.mk.inj hboth
  exact ⟨tree, hread, hplaced, hentries⟩

end SourceTree

end Phrasebook
