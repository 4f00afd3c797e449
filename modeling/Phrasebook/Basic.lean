/-!
# Maps and traversals

What the library stands on: maps from text keys, and functions that may fail, along a list.

A `KeyMap` holds values under text keys in the order of the keys, which is the order by code point. The entries
are a list, strictly increasing in their keys; the type carries the proof, so equal maps have equal entries.

- `get?_insert` says what is found after an insertion.
- `get?_erase` says what is found after a removal.
- `ext_get?`: maps that answer alike are equal.

`traverse` applies a function to the items of a list in order and stops at the first error.
-/

namespace Phrasebook

universe u v w

/-! ## Entry lists -/

namespace Entries

variable {α : Type u}

/-- Entries in strictly increasing order of their keys. -/
def Increasing (es : List (String × α)) : Prop := es.Pairwise fun a b => a.1 < b.1

/-- The entries with the value at a key set. -/
def insert (k : String) (v : α) : List (String × α) → List (String × α)
  | [] => [(k, v)]
  | (k', v') :: es =>
    if k < k' then (k, v) :: (k', v') :: es
    else if k = k' then (k, v) :: es
    else (k', v') :: insert k v es

/-- The entries without the one at a key. -/
def erase (k : String) : List (String × α) → List (String × α)
  | [] => []
  | (k', v') :: es => if k = k' then es else (k', v') :: erase k es

/-- The value at a key. -/
def find? (k : String) : List (String × α) → Option α
  | [] => none
  | (k', v') :: es => if k = k' then some v' else find? k es

theorem mem_insert {k : String} {v : α} {e : String × α} {es : List (String × α)}
    (h : e ∈ insert k v es) : e = (k, v) ∨ e ∈ es := by
  induction es with
  | nil => simpa [insert] using h
  | cons hd tl ih =>
    obtain ⟨k', v'⟩ := hd
    simp only [insert] at h
    split at h
    · simpa using h
    · split at h
      · rcases List.mem_cons.1 h with h | h
        · exact .inl h
        · exact .inr (List.mem_cons_of_mem _ h)
      · rcases List.mem_cons.1 h with h | h
        · exact .inr (h ▸ List.mem_cons_self)
        · exact (ih h).imp_right (List.mem_cons_of_mem _)

theorem lt_of_not_lt_of_ne {a b : String} (h : ¬ a < b) (hne : a ≠ b) : b < a := by
  refine Decidable.byContradiction fun hba => hne ?_
  exact String.le_antisymm (String.not_lt.1 hba) (String.not_lt.1 h)

theorem Increasing.insert {es : List (String × α)} (h : Increasing es) (k : String) (v : α) :
    Increasing (insert k v es) := by
  induction es with
  | nil => simp [Entries.insert, Increasing]
  | cons hd tl ih =>
    obtain ⟨k', v'⟩ := hd
    have htl := List.Pairwise.of_cons h
    have hlt : ∀ e ∈ tl, k' < e.1 := fun e he => List.rel_of_pairwise_cons h he
    simp only [Entries.insert]
    split
    · rename_i hk
      refine List.pairwise_cons.2 ⟨fun e he => ?_, h⟩
      rcases List.mem_cons.1 he with he | he
      · exact he ▸ hk
      · exact Std.lt_trans hk (hlt e he)
    · split
      · rename_i hk
        exact List.pairwise_cons.2 ⟨fun e he => hk ▸ hlt e he, htl⟩
      · rename_i hk hne
        refine List.pairwise_cons.2 ⟨fun e he => ?_, ih htl⟩
        rcases mem_insert he with he | he
        · exact he ▸ lt_of_not_lt_of_ne hk hne
        · exact hlt e he

theorem erase_sublist (k : String) (es : List (String × α)) : (erase k es).Sublist es := by
  induction es with
  | nil => exact .slnil
  | cons hd tl ih =>
    obtain ⟨k', v'⟩ := hd
    simp only [erase]
    split
    · exact List.sublist_cons_self _ _
    · exact ih.cons_cons _

theorem find?_insert (k k' : String) (v : α) (es : List (String × α)) :
    find? k' (insert k v es) = if k' = k then some v else find? k' es := by
  induction es with
  | nil => simp [insert, find?]
  | cons hd tl ih =>
    obtain ⟨k₁, v₁⟩ := hd
    simp only [insert]
    split
    · simp [find?]
    · split
      · rename_i hk
        subst hk
        by_cases h : k' = k <;> simp [find?, h]
      · rename_i hne
        by_cases h : k' = k₁
        · have : k' ≠ k := fun e => hne (e ▸ h)
          simp [find?, h, Ne.symm hne]
        · simp [find?, h, ih]

theorem find?_eq_none {k : String} {es : List (String × α)} (h : ∀ e ∈ es, k ≠ e.1) :
    find? k es = none := by
  induction es with
  | nil => rfl
  | cons hd tl ih =>
    obtain ⟨k', v'⟩ := hd
    have hne : k ≠ k' := h (k', v') List.mem_cons_self
    simp [find?, hne, ih fun e he => h e (List.mem_cons_of_mem _ he)]

theorem Increasing.find?_erase {es : List (String × α)} (h : Increasing es) (k k' : String) :
    find? k' (erase k es) = if k' = k then none else find? k' es := by
  induction es with
  | nil => simp [erase, find?]
  | cons hd tl ih =>
    obtain ⟨k₁, v₁⟩ := hd
    have htl := List.Pairwise.of_cons h
    simp only [erase]
    split
    · rename_i hk
      subst hk
      by_cases hk' : k' = k
      · subst hk'
        simp only [↓reduceIte]
        exact find?_eq_none fun e he => Std.ne_of_lt (List.rel_of_pairwise_cons h he)
      · simp [find?, hk']
    · rename_i hne
      by_cases hk' : k' = k₁
      · simp [find?, hk', Ne.symm hne]
      · simp [find?, hk', ih htl]

theorem find?_of_mem {k : String} {v : α} {es : List (String × α)} (h : Increasing es)
    (hm : (k, v) ∈ es) : find? k es = some v := by
  induction es with
  | nil => simp at hm
  | cons hd tl ih =>
    obtain ⟨k', v'⟩ := hd
    rcases List.mem_cons.1 hm with he | he
    · simp [find?, (Prod.mk.inj he).1, (Prod.mk.inj he).2]
    · have hne : k ≠ k' := (Std.ne_of_lt (List.rel_of_pairwise_cons h he)).symm
      simp [find?, hne, ih (List.Pairwise.of_cons h) he]

theorem mem_of_find? {k : String} {v : α} {es : List (String × α)} (h : find? k es = some v) :
    (k, v) ∈ es := by
  induction es with
  | nil => simp [find?] at h
  | cons hd tl ih =>
    obtain ⟨k', v'⟩ := hd
    simp only [find?] at h
    split at h
    · rename_i hk
      simp_all
    · exact List.mem_cons_of_mem _ (ih h)

theorem eq_of_find?_eq {es fs : List (String × α)} (he : Increasing es) (hf : Increasing fs)
    (h : ∀ k, find? k es = find? k fs) : es = fs := by
  induction es generalizing fs with
  | nil =>
    cases fs with
    | nil => rfl
    | cons hd tl => simpa [find?] using h hd.1
  | cons hd tl ih =>
    obtain ⟨k, v⟩ := hd
    cases fs with
    | nil => simpa [find?] using h k
    | cons hd' tl' =>
      obtain ⟨k', v'⟩ := hd'
      have hk : k = k' := by
        have h₁ : (k, v) ∈ (k', v') :: tl' := mem_of_find? (by rw [← h k]; simp [find?])
        have h₂ : (k', v') ∈ (k, v) :: tl := mem_of_find? (by rw [h k']; simp [find?])
        rcases List.mem_cons.1 h₁ with h₁ | h₁
        · exact (Prod.mk.inj h₁).1
        · rcases List.mem_cons.1 h₂ with h₂ | h₂
          · exact (Prod.mk.inj h₂).1.symm
          · exact absurd (Std.lt_trans (List.rel_of_pairwise_cons hf h₁)
              (List.rel_of_pairwise_cons he h₂)) (Std.lt_irrefl)
      subst hk
      have hv : v = v' := by simpa [find?] using h k
      subst hv
      have hrest : tl = tl' := by
        refine ih (List.Pairwise.of_cons he) (List.Pairwise.of_cons hf) fun k₁ => ?_
        by_cases hk₁ : k₁ = k
        · subst hk₁
          rw [find?_eq_none fun e hm => Std.ne_of_lt (List.rel_of_pairwise_cons he hm),
            find?_eq_none fun e hm => Std.ne_of_lt (List.rel_of_pairwise_cons hf hm)]
        · simpa [find?, hk₁] using h k₁
      rw [hrest]

end Entries

/-! ## Maps -/

/-- A finite map from text keys, with its entries in the order of their keys. -/
structure KeyMap (α : Type u) where
  /-- The entries, in increasing order of their keys. -/
  entries : List (String × α)
  /-- Each key is smaller than the keys after it. -/
  increasing : Entries.Increasing entries
  deriving DecidableEq

namespace KeyMap

variable {α : Type u} {β : Type v}

/-- The map without entries. -/
def empty : KeyMap α := ⟨[], .nil⟩

instance : Inhabited (KeyMap α) := ⟨empty⟩

/-- The map with the value at a key set. -/
def insert (m : KeyMap α) (k : String) (v : α) : KeyMap α :=
  ⟨Entries.insert k v m.entries, m.increasing.insert k v⟩

/-- The map without the value at a key. -/
def erase (m : KeyMap α) (k : String) : KeyMap α :=
  ⟨Entries.erase k m.entries, m.increasing.sublist (Entries.erase_sublist k m.entries)⟩

/-- The value at a key. -/
def get? (m : KeyMap α) (k : String) : Option α := Entries.find? k m.entries

/-- Whether a key has a value. -/
def contains (m : KeyMap α) (k : String) : Bool := (m.get? k).isSome

/-- The keys, in their order. -/
def keys (m : KeyMap α) : List String := m.entries.map (·.1)

/-- The values, in the order of their keys. -/
def values (m : KeyMap α) : List α := m.entries.map (·.2)

/-- The number of keys. -/
def size (m : KeyMap α) : Nat := m.entries.length

def isEmpty (m : KeyMap α) : Bool := m.entries.isEmpty

/-- The map of a list of entries; of two with one key the later one stays. -/
def ofList (es : List (String × α)) : KeyMap α := es.foldl (fun m e => m.insert e.1 e.2) empty

/-- The map with each value replaced by a function of its key and itself. -/
def mapValues (f : String → α → β) (m : KeyMap α) : KeyMap β :=
  ⟨m.entries.map fun e => (e.1, f e.1 e.2),
    List.pairwise_map.2 (m.increasing.imp fun h => h)⟩

/-! ## Laws -/

@[simp] theorem get?_empty (k : String) : (empty : KeyMap α).get? k = none := rfl

theorem get?_insert (m : KeyMap α) (k k' : String) (v : α) :
    (m.insert k v).get? k' = if k' = k then some v else m.get? k' :=
  Entries.find?_insert k k' v m.entries

theorem get?_erase (m : KeyMap α) (k k' : String) :
    (m.erase k).get? k' = if k' = k then none else m.get? k' :=
  m.increasing.find?_erase k k'

theorem mem_entries_iff {m : KeyMap α} {k : String} {v : α} :
    (k, v) ∈ m.entries ↔ m.get? k = some v :=
  ⟨Entries.find?_of_mem m.increasing, Entries.mem_of_find?⟩

theorem ext_get? {m n : KeyMap α} (h : ∀ k, m.get? k = n.get? k) : m = n := by
  cases m with
  | mk es he =>
    cases n with
    | mk fs hf =>
      have := Entries.eq_of_find?_eq he hf h
      subst this
      rfl

end KeyMap

/-! ## Traversals -/

section Traverse

variable {α : Type u} {β : Type v} {ε : Type w}

/-- The results of a function on the items of a list, or its first error. -/
def traverse (f : α → Except ε β) : List α → Except ε (List β)
  | [] => .ok []
  | a :: as => match f a with
    | .error e => .error e
    | .ok b => (traverse f as).map (b :: ·)

/-- A traversal succeeds exactly when it does on the first item and on the items after it. -/
theorem traverse_eq_ok_cons {f : α → Except ε β} {a : α} {as : List α} {bs : List β} :
    traverse f (a :: as) = .ok bs ↔
      ∃ b bs', f a = .ok b ∧ traverse f as = .ok bs' ∧ bs = b :: bs' := by
  simp only [traverse]
  cases hf : f a with
  | error e => simp
  | ok b =>
    cases ht : traverse f as with
    | error e => simp [Except.map]
    | ok bs' => simp [Except.map, eq_comm]

end Traverse

end Phrasebook
