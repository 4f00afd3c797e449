import Phrasebook.Basic
import Mathlib.Data.List.Dedup

/-!
# Look-ups in maps

What is found in a map that was made from a list or from another map, and how keys, values and look-ups of one map
go together.

- `get?_ofList`: of the entries of a list with one key, the last one is found.
- `get?_ofList_eq_some_iff_last`: it is the one that no entry of the same key stands behind.
- `size_ofList`: a map has one entry for each key of its list.
- `get?_ofList_eq_some_iff`: where no key is repeated, exactly the entries of the list are found.
- `get?_ofList_filterMap`: a list of keys with the values of a function gives the values of that function.
- `get?_mapValues`: a map of values keeps the keys.
-/

namespace Phrasebook

universe u v

variable {α : Type u} {β : Type v}

/-! ## §1 Entry lists -/

namespace Entries

theorem find?_append (k : String) (es fs : List (String × α)) :
    find? k (es ++ fs) = (find? k es).or (find? k fs) := by
  induction es with
  | nil => simp [find?]
  | cons e es ih =>
    obtain ⟨k', v⟩ := e
    by_cases h : k = k' <;> simp [find?, h, ih]

/-- An entry is found when no other entry has its key. -/
theorem find?_of_mem_of_nodup {k : String} {v : α} {es : List (String × α)}
    (hnodup : (es.map (·.1)).Nodup) (hmem : (k, v) ∈ es) : find? k es = some v := by
  induction es with
  | nil => simp at hmem
  | cons e es ih =>
    obtain ⟨k', v'⟩ := e
    rw [List.map_cons, List.nodup_cons] at hnodup
    rcases List.mem_cons.mp hmem with heq | htail
    · simp [find?, (Prod.mk.inj heq).1, (Prod.mk.inj heq).2]
    · -- An equal key would be met again behind the first entry.
      have hne : k ≠ k' := by
        rintro rfl
        exact hnodup.1 (List.mem_map.mpr ⟨(k, v), htail, rfl⟩)
      simp [find?, hne, ih hnodup.2 htail]

/-- What is found is the first entry of its key. -/
theorem find?_eq_some_iff {k : String} {v : α} {es : List (String × α)} :
    find? k es = some v ↔ ∃ before behind, es = before ++ (k, v) :: behind ∧ ∀ e ∈ before, e.1 ≠ k := by
  refine ⟨fun h => ?_, fun h => ?_⟩
  -- By induction on the entries: what is found stands first here, or behind an entry of another key.
  · induction es with
    | nil => cases h
    | cons e es ih =>
      obtain ⟨k', v'⟩ := e
      rw [find?] at h
      split at h
      · rename_i hk
        obtain rfl := Option.some.inj h
        exact ⟨[], es, by rw [hk]; rfl, by simp⟩
      · rename_i hne
        obtain ⟨before, behind, rfl, hbefore⟩ := ih h
        exact ⟨(k', v') :: before, behind, rfl, List.forall_mem_cons.mpr ⟨Ne.symm hne, hbefore⟩⟩
  · obtain ⟨before, behind, rfl, hbefore⟩ := h
    rw [find?_append, find?_eq_none fun e he => Ne.symm (hbefore e he), Option.none_or, find?, if_pos rfl]

theorem exists_find?_iff {k : String} {es : List (String × α)} :
    (∃ v, find? k es = some v) ↔ k ∈ es.map (·.1) := by
  rw [List.mem_map]
  refine ⟨fun h => ?_, fun h => ?_⟩
  · obtain ⟨v, hv⟩ := h
    exact ⟨(k, v), mem_of_find? hv, rfl⟩
  · obtain ⟨e, he, rfl⟩ := h
    induction es with
    | nil => cases he
    | cons e' es ih =>
      rw [find?]
      split
      · exact ⟨_, rfl⟩
      · rename_i hne
        exact ih ((List.mem_cons.mp he).resolve_left fun heq => hne (congrArg Prod.fst heq))

/-- A key that is not there yet is one more. -/
theorem length_insert_of_find?_eq_none {k : String} {v : α} {es : List (String × α)} (h : find? k es = none) :
    (insert k v es).length = es.length + 1 := by
  -- By induction on the entries: the new one is put in front of a greater key, or at the end.
  induction es with
  | nil => rfl
  | cons e es ih =>
    obtain ⟨k', v'⟩ := e
    rw [find?] at h
    split at h
    · cases h
    · rename_i hne
      rw [insert, if_neg hne]
      split
      · rfl
      · rw [List.length_cons, ih h, List.length_cons]

theorem find?_map_val (f : String → α → β) (k : String) (es : List (String × α)) :
    find? k (es.map fun e => (e.1, f e.1 e.2)) = (find? k es).map (f k) := by
  induction es with
  | nil => rfl
  | cons e es ih =>
    obtain ⟨k', v⟩ := e
    by_cases h : k = k'
    · subst h
      simp [find?]
    · simp [find?, h, ih]

end Entries

/-! ## §2 Maps -/

namespace KeyMap

theorem contains_iff {m : KeyMap α} {k : String} : m.contains k = true ↔ ∃ v, m.get? k = some v := by
  rw [contains, Option.isSome_iff_exists]

theorem mem_keys_iff {m : KeyMap α} {k : String} : k ∈ m.keys ↔ m.contains k = true := by
  rw [contains_iff, keys, List.mem_map]
  refine ⟨fun hk => ?_, fun hk => ?_⟩
  · obtain ⟨⟨k', v⟩, hmem, rfl⟩ := hk
    exact ⟨v, mem_entries_iff.mp hmem⟩
  · obtain ⟨v, hget⟩ := hk
    exact ⟨(k, v), mem_entries_iff.mpr hget, rfl⟩

/-- The keys stand in increasing order. -/
theorem keys_pairwise (m : KeyMap α) : m.keys.Pairwise (· < ·) :=
  List.pairwise_map.mpr m.increasing

theorem keys_nodup (m : KeyMap α) : m.keys.Nodup :=
  m.keys_pairwise.imp Std.ne_of_lt

theorem size_insert_of_get?_eq_none {m : KeyMap α} {k : String} (h : m.get? k = none) (v : α) :
    (m.insert k v).size = m.size + 1 :=
  Entries.length_insert_of_find?_eq_none h

theorem get?_mapValues (f : String → α → β) (m : KeyMap α) (k : String) :
    (m.mapValues f).get? k = (m.get? k).map (f k) :=
  Entries.find?_map_val f k m.entries

/-! ## §3 Maps of lists -/

private theorem get?_foldl_insert (es : List (String × α)) (m : KeyMap α) (k : String) :
    (es.foldl (fun m e => m.insert e.1 e.2) m).get? k = (Entries.find? k es.reverse).or (m.get? k) := by
  induction es generalizing m with
  | nil => rfl
  | cons e es ih =>
    obtain ⟨k', v⟩ := e
    rw [List.foldl_cons, ih, get?_insert, List.reverse_cons, Entries.find?_append]
    by_cases h : k = k' <;> simp [Entries.find?, h]

/-- Of the entries of a list with one key, the last one is found. -/
theorem get?_ofList (es : List (String × α)) (k : String) :
    (ofList es).get? k = Entries.find? k es.reverse := by
  rw [ofList, get?_foldl_insert, get?_empty, Option.or_none]

/-- Of the entries of a list with one key, the one behind which no other stands is found. -/
theorem get?_ofList_eq_some_iff_last {es : List (String × α)} {k : String} {v : α} :
    (ofList es).get? k = some v ↔
      ∃ before behind, es = before ++ (k, v) :: behind ∧ ∀ e ∈ behind, e.1 ≠ k := by
  rw [get?_ofList, Entries.find?_eq_some_iff]
  refine ⟨fun h => ?_, fun h => ?_⟩
  · obtain ⟨before, behind, hes, hbefore⟩ := h
    refine ⟨behind.reverse, before.reverse, ?_, fun e he => hbefore e (List.mem_reverse.mp he)⟩
    rw [← List.reverse_reverse es, hes]
    simp
  · obtain ⟨before, behind, rfl, hbehind⟩ := h
    exact ⟨behind.reverse, before.reverse, by simp, fun e he => hbehind e (List.mem_reverse.mp he)⟩

theorem mem_keys_ofList_iff {es : List (String × α)} {k : String} : k ∈ (ofList es).keys ↔ k ∈ es.map (·.1) := by
  rw [mem_keys_iff, contains_iff, get?_ofList, Entries.exists_find?_iff, List.map_reverse, List.mem_reverse]

/-- A map has one entry for each key of its list. -/
theorem size_ofList (es : List (String × α)) : (ofList es).size = (es.map (·.1)).dedup.length := by
  have hperm : (ofList es).keys.Perm (es.map (·.1)).dedup := by
    rw [List.perm_ext_iff_of_nodup (ofList es).keys_nodup (List.nodup_dedup _)]
    exact fun k => mem_keys_ofList_iff.trans List.mem_dedup.symm
  rw [← hperm.length_eq, keys, List.length_map, size]

/-- It has as many entries as its list exactly when no key is repeated. -/
theorem size_ofList_eq_length_iff {es : List (String × α)} :
    (ofList es).size = es.length ↔ (es.map (·.1)).Nodup := by
  rw [size_ofList]
  refine ⟨fun h => ?_, fun h => ?_⟩
  · have hsame := (List.dedup_sublist (es.map (·.1))).eq_of_length (h.trans (List.length_map _).symm)
    exact hsame ▸ List.nodup_dedup _
  · rw [h.dedup, List.length_map]

/-- Where no key is repeated, exactly the entries of the list are found. -/
theorem get?_ofList_eq_some_iff {es : List (String × α)} (hnodup : (es.map (·.1)).Nodup)
    {k : String} {v : α} : (ofList es).get? k = some v ↔ (k, v) ∈ es := by
  rw [get?_ofList]
  refine ⟨fun hfind => ?_, fun hmem => ?_⟩
  · exact List.mem_reverse.mp (Entries.mem_of_find? hfind)
  · refine Entries.find?_of_mem_of_nodup ?_ (List.mem_reverse.mpr hmem)
    rw [List.map_reverse]
    exact (List.reverse_perm _).nodup_iff.mpr hnodup

/-- Where no key is repeated, a map has the entries of its list in another order. -/
theorem entries_ofList_perm {es : List (String × α)} (hnodup : (es.map (·.1)).Nodup) :
    (ofList es).entries.Perm es := by
  have hentries : ∀ {fs : List (String × α)}, (fs.map (·.1)).Nodup → fs.Nodup := fun h =>
    List.Pairwise.of_map _ (fun _ _ hne heq => hne (congrArg _ heq)) h
  rw [List.perm_ext_iff_of_nodup (hentries (ofList es).keys_nodup) (hentries hnodup)]
  rintro ⟨k, v⟩
  rw [mem_entries_iff, get?_ofList_eq_some_iff hnodup]

theorem get?_ofList_append (es fs : List (String × α)) (k : String) :
    (ofList (es ++ fs)).get? k = ((ofList fs).get? k).or ((ofList es).get? k) := by
  rw [get?_ofList, get?_ofList, get?_ofList, List.reverse_append, Entries.find?_append]

/-- The entries of a map make the map again. -/
theorem ofList_entries (m : KeyMap α) : ofList m.entries = m := by
  refine ext_get? fun k => Option.ext fun v => ?_
  rw [get?_ofList_eq_some_iff m.keys_nodup, mem_entries_iff]

/-- In the map that gives the keys of a list the values of a function, keys may be repeated. -/
theorem get?_ofList_filterMap (f : String → Option α) (ks : List String) (k : String) :
    (ofList (ks.filterMap fun k => (f k).map fun v => (k, v))).get? k = if k ∈ ks then f k else none := by
  rw [get?_ofList, ← List.filterMap_reverse]
  have hmem : k ∈ ks ↔ k ∈ ks.reverse := List.mem_reverse.symm
  simp only [hmem]
  -- The reversed list is that in which entries are looked for, so the induction is on it.
  induction ks.reverse with
  | nil => rfl
  | cons k' ks' ih =>
    rw [List.filterMap_cons]
    by_cases h : k = k'
    · subst h
      cases hf : f k with
      | none => simp [ih, hf]
      | some v => simp [Entries.find?]
    · cases hf : f k' with
      | none => simp [ih, h]
      | some v => simp [Entries.find?, ih, h]

theorem get?_ofList_map (f : String → α) (ks : List String) (k : String) :
    (ofList (ks.map fun k => (k, f k))).get? k = if k ∈ ks then some (f k) else none := by
  rw [← get?_ofList_filterMap fun k => some (f k)]
  simp only [Option.map_some, List.filterMap_eq_map']

end KeyMap

end Phrasebook
