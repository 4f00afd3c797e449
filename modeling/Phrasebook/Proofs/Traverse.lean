import Phrasebook.Basic
import Mathlib.Data.List.Forall2

/-!
# Success of functions that may fail

When a chain of functions that may fail succeeds, and what it yields then.

- `bind_eq_ok`, `map_eq_ok` and `mapError_eq_ok` open one step of a chain that succeeds; `bind_eq_error`, `map_eq_error`
  and `mapError_eq_error` one of a chain that fails.
- `traverse_eq_ok_iff` opens a traversal: every item succeeds, and the results stand in the order of the items.
- `fails_iff_of_not` and `eq_error_iff_of_exists` say when a chain fails, and with which error.
- `map_eq_ok_iff_of_forall` and `traverse_eq_ok_iff_of_forall` do so where the results are known beforehand.
- `traverse_sameOutcome` compares the errors of two traversals.
- `mapM_eq_some_iff` is about values that may be missing, `forall₂_comp` about relations in a row, and
  `exists_forall₂_of_exists` about lists of what exists item by item.
-/

namespace Phrasebook

universe u v w

/-! ## §1 One step -/

section Step

variable {α β : Type u} {ε : Type v}

@[simp] theorem bind_eq_ok {x : Except ε α} {f : α → Except ε β} {b : β} :
    (x >>= f) = .ok b ↔ ∃ a, x = .ok a ∧ f a = .ok b := by
  cases x <;> simp [bind, Except.bind]

@[simp] theorem pure_eq_ok {a b : α} : (pure a : Except ε α) = .ok b ↔ b = a := by
  simp [pure, Except.pure, eq_comm]

@[simp] theorem map_eq_ok {x : Except ε α} {f : α → β} {b : β} :
    x.map f = .ok b ↔ ∃ a, x = .ok a ∧ b = f a := by
  cases x <;> simp [Except.map, eq_comm]

@[simp] theorem mapError_eq_ok {ε' : Type w} {x : Except ε α} {f : ε → ε'} {a : α} :
    x.mapError f = .ok a ↔ x = .ok a := by
  cases x <;> simp [Except.mapError]

/-- A chain fails in its first step or behind it. -/
theorem bind_eq_error {x : Except ε α} {f : α → Except ε β} {e : ε} :
    (x >>= f) = .error e ↔ x = .error e ∨ ∃ a, x = .ok a ∧ f a = .error e := by
  cases x <;> simp [bind, Except.bind]

theorem map_eq_error {x : Except ε α} {f : α → β} {e : ε} : x.map f = .error e ↔ x = .error e := by
  cases x <;> simp [Except.map]

theorem mapError_eq_error {ε' : Type w} {x : Except ε α} {f : ε → ε'} {e' : ε'} :
    x.mapError f = .error e' ↔ ∃ e, x = .error e ∧ f e = e' := by
  cases x <;> simp [Except.mapError]

/-- Where success is a condition and its result is known, so are those of what is made of it. -/
theorem map_eq_ok_iff_of_forall {x : Except ε α} {p : Prop} {a : α} (h : ∀ a', x = .ok a' ↔ p ∧ a' = a)
    {f : α → β} {b : β} : x.map f = .ok b ↔ p ∧ b = f a := by
  rw [map_eq_ok]
  refine ⟨fun hb => ?_, fun hb => ?_⟩
  · obtain ⟨a', ha', rfl⟩ := hb
    obtain ⟨hp, rfl⟩ := (h a').mp ha'
    exact ⟨hp, rfl⟩
  · exact ⟨a, (h a).mpr ⟨hb.1, rfl⟩, hb.2⟩

/-- What succeeds where a condition fails, and fails where it holds, fails just under the condition. -/
theorem fails_iff_of_not {x : Except ε α} {p : Prop} (hok : ¬ p → ∃ a, x = .ok a) (herror : p → ∃ e, x = .error e) :
    (∃ e, x = .error e) ↔ p := by
  refine ⟨fun h => ?_, herror⟩
  obtain ⟨e, he⟩ := h
  by_contra hp
  obtain ⟨a, ha⟩ := hok hp
  rw [he] at ha
  cases ha

/-- There is one error at most, so that one that is known is the only one. -/
theorem eq_error_iff_of_exists {x : Except ε α} {P : ε → Prop} (h : ∀ e, P e → x = .error e)
    (hexists : (∃ e, x = .error e) → ∃ e, P e) {e : ε} : x = .error e ↔ P e := by
  refine ⟨fun he => ?_, h e⟩
  obtain ⟨e', he'⟩ := hexists ⟨e, he⟩
  rw [h e' he'] at he
  exact Except.error.inj he ▸ he'

end Step

/-! ## §2 Traversals -/

variable {α : Type u} {β : Type v} {ε : Type w}

/-- A traversal succeeds exactly when every item does, with the results in the order of the items. -/
theorem traverse_eq_ok_iff {f : α → Except ε β} {as : List α} {bs : List β} :
    traverse f as = .ok bs ↔ List.Forall₂ (fun a b => f a = .ok b) as bs := by
  induction as generalizing bs with
  | nil =>
    rw [List.forall₂_nil_left_iff]
    simp [traverse, eq_comm]
  | cons a as ih =>
    rw [traverse_eq_ok_cons, List.forall₂_cons_left_iff]
    refine ⟨fun h => ?_, fun h => ?_⟩
    · obtain ⟨b, bs', hb, hbs, rfl⟩ := h
      exact ⟨b, bs', hb, ih.mp hbs, rfl⟩
    · obtain ⟨b, bs', hb, hbs, rfl⟩ := h
      exact ⟨b, bs', hb, ih.mpr hbs, rfl⟩

/-- Functions that agree on all items have the same traversal. -/
theorem traverse_congr {f g : α → Except ε β} {as : List α} (h : ∀ a ∈ as, f a = g a) :
    traverse f as = traverse g as := by
  induction as with
  | nil => rfl
  | cons a as ih =>
    have hhead := h a List.mem_cons_self
    have htail := ih fun b hb => h b (List.mem_cons_of_mem a hb)
    rw [traverse, traverse, hhead, htail]

/-- Where success of an item is a condition and its result a known function of it, so are those of a traversal. -/
theorem traverse_eq_ok_iff_of_forall {f : α → Except ε β} {p : α → Prop} {g : α → β}
    (h : ∀ a b, f a = .ok b ↔ p a ∧ b = g a) {as : List α} {bs : List β} :
    traverse f as = .ok bs ↔ (∀ a ∈ as, p a) ∧ bs = as.map g := by
  induction as generalizing bs with
  | nil => simp [traverse, eq_comm]
  | cons a as ih =>
    simp only [traverse_eq_ok_cons, h, ih, List.forall_mem_cons, List.map_cons]
    refine ⟨fun hbs => ?_, fun hbs => ?_⟩
    · obtain ⟨b, bs', ⟨hp, rfl⟩, ⟨hps, rfl⟩, rfl⟩ := hbs
      exact ⟨⟨hp, hps⟩, rfl⟩
    · obtain ⟨⟨hp, hps⟩, rfl⟩ := hbs
      exact ⟨g a, as.map g, ⟨hp, rfl⟩, ⟨hps, rfl⟩, rfl⟩

theorem traverse_map {γ : Type u} (f : α → Except ε β) (g : γ → α) (as : List γ) :
    traverse f (as.map g) = traverse (fun a => f (g a)) as := by
  induction as with
  | nil => rfl
  | cons a as ih => rw [List.map_cons, traverse, traverse, ih]

/-- The error of a traversal is that of an item. -/
theorem exists_of_traverse_eq_error {f : α → Except ε β} {as : List α} {e : ε} (h : traverse f as = .error e) :
    ∃ a ∈ as, f a = .error e := by
  -- By induction on the items, up to the first one that fails.
  induction as with
  | nil => cases h
  | cons a as ih =>
    cases hf : f a with
    | error e' =>
      simp only [traverse, hf, Except.error.injEq] at h
      exact ⟨a, List.mem_cons_self, h ▸ hf⟩
    | ok b =>
      cases ht : traverse f as with
      | error e' =>
        simp only [traverse, hf, ht, Except.map, Except.error.injEq] at h
        obtain ⟨a', ha', herror⟩ := ih (h ▸ ht)
        exact ⟨a', List.mem_cons_of_mem a ha', herror⟩
      | ok bs => simp [traverse, hf, ht, Except.map] at h

/-- Where not all items have a property, there is a first one that has not. -/
theorem exists_first_of_not_forall {P : α → Prop} {as : List α} (h : ¬ ∀ a ∈ as, P a) :
    ∃ before a behind, as = before ++ a :: behind ∧ (∀ b ∈ before, P b) ∧ ¬ P a := by
  induction as with
  | nil => exact absurd (List.forall_mem_nil P) h
  | cons a as ih =>
    by_cases ha : P a
    · obtain ⟨before, a', behind, rfl, hbefore, ha'⟩ := ih fun hrest => h (List.forall_mem_cons.mpr ⟨ha, hrest⟩)
      exact ⟨a :: before, a', behind, rfl, List.forall_mem_cons.mpr ⟨ha, hbefore⟩, ha'⟩
    · exact ⟨[], a, as, rfl, List.forall_mem_nil P, ha⟩

/-- Two results that are both values, or else errors that are related. -/
def SameOutcome {ε ε' : Type u} {β : Type v} {β' : Type w} (R : ε → ε' → Prop) : Except ε β → Except ε' β' → Prop
  | .ok _, .ok _ => True
  | .error e, .error e' => R e e'
  | _, _ => False

section Outcome

variable {ε ε' : Type u} {β δ : Type v} {β' δ' : Type w} {R : ε → ε' → Prop}

theorem SameOutcome.exists_error {e : ε} {y : Except ε' β'} (h : SameOutcome R (.error e : Except ε β) y) :
    ∃ e', y = .error e' ∧ R e e' := by
  cases y with
  | ok b' => exact absurd h id
  | error e' => exact ⟨e', rfl, h⟩

theorem SameOutcome.exists_error_left {x : Except ε β} {e' : ε'} (h : SameOutcome R x (.error e' : Except ε' β')) :
    ∃ e, x = .error e ∧ R e e' := by
  cases x with
  | ok b => exact absurd h id
  | error e => exact ⟨e, rfl, h⟩

theorem SameOutcome.ok_iff {x : Except ε β} {y : Except ε' β'} (h : SameOutcome R x y) :
    (∃ b, x = .ok b) ↔ ∃ b', y = .ok b' := by
  cases x with
  | ok b =>
    cases y with
    | ok b' => exact iff_of_true ⟨b, rfl⟩ ⟨b', rfl⟩
    | error e' => exact absurd h id
  | error e =>
    obtain ⟨e', rfl, -⟩ := h.exists_error
    simp

theorem SameOutcome.map {x : Except ε β} {y : Except ε' β'} (h : SameOutcome R x y) (f : β → δ) (g : β' → δ') :
    SameOutcome R (x.map f) (y.map g) := by
  cases x <;> cases y <;> exact h

/-- Functions with the same outcome on each item have the same outcome along a list: they stop at the same item. -/
theorem traverse_sameOutcome {α : Type u} {f : α → Except ε β} {g : α → Except ε' β'} {as : List α}
    (h : ∀ a ∈ as, SameOutcome R (f a) (g a)) : SameOutcome R (traverse f as) (traverse g as) := by
  -- By induction on the items; the first error on either side is at the same item.
  induction as with
  | nil => trivial
  | cons a as ih =>
    have hhead := h a List.mem_cons_self
    have htail := ih fun b hb => h b (List.mem_cons_of_mem a hb)
    rw [traverse, traverse]
    cases hf : f a with
    | error e =>
      cases hg : g a with
      | error e' => rwa [hf, hg] at hhead
      | ok c => exact absurd hhead (by simp [hf, hg, SameOutcome])
    | ok b =>
      cases hg : g a with
      | error e' => exact absurd hhead (by simp [hf, hg, SameOutcome])
      | ok c => exact htail.map _ _

end Outcome

/-! ## §3 Related lists -/

/-- Values that may be missing are all there exactly when each one is, in the order of the items. -/
theorem mapM_eq_some_iff {f : α → Option β} {as : List α} {bs : List β} :
    as.mapM f = some bs ↔ List.Forall₂ (fun a b => f a = some b) as bs := by
  induction as generalizing bs with
  | nil => simp [eq_comm]
  | cons a as ih =>
    rw [List.mapM_cons, List.forall₂_cons_left_iff]
    cases hf : f a with
    | none => simp
    | some b =>
      show (as.mapM f).bind (fun bs => some (b :: bs)) = some bs ↔ _
      simp only [Option.bind_eq_some_iff, ih, Option.some.injEq, exists_and_left, exists_eq_left', @eq_comm _ bs]

/-- Where no value is missing, nothing is left out by leaving out what is missing. -/
theorem mapM_eq_some_filterMap {f : α → Option β} {as : List α} (h : ∀ a ∈ as, (f a).isSome = true) :
    as.mapM f = some (as.filterMap f) := by
  induction as with
  | nil => rfl
  | cons a as ih =>
    obtain ⟨b, hb⟩ := Option.isSome_iff_exists.mp (h a List.mem_cons_self)
    rw [List.mapM_cons, hb, ih fun a' ha => h a' (List.mem_cons_of_mem a ha), List.filterMap_cons_some hb]
    rfl

theorem isSome_mapM_iff {f : α → Option β} {as : List α} :
    (as.mapM f).isSome = true ↔ ∀ a ∈ as, (f a).isSome = true := by
  induction as with
  | nil => simp
  | cons a as ih =>
    rw [List.mapM_cons, List.forall_mem_cons, ← ih]
    cases f a with
    | none => simp
    | some b => cases as.mapM f <;> simp

theorem exists_of_forall₂_of_mem {R : α → β → Prop} {as : List α} {bs : List β} (h : List.Forall₂ R as bs)
    {a : α} (ha : a ∈ as) : ∃ b ∈ bs, R a b := by
  induction h with
  | nil => cases ha
  | @cons a' b' as bs hR _ ih =>
    rcases List.mem_cons.mp ha with rfl | ha
    · exact ⟨b', List.mem_cons_self, hR⟩
    · obtain ⟨b, hb, hab⟩ := ih ha
      exact ⟨b, List.mem_cons_of_mem b' hb, hab⟩

theorem exists_of_forall₂_of_mem_right {R : α → β → Prop} {as : List α} {bs : List β} (h : List.Forall₂ R as bs)
    {b : β} (hb : b ∈ bs) : ∃ a ∈ as, R a b :=
  exists_of_forall₂_of_mem h.flip hb

theorem exists_of_forall₂_singleton {R : α → β → Prop} {a : α} {bs : List β} (h : List.Forall₂ R [a] bs) :
    ∃ b, bs = [b] ∧ R a b := by
  obtain ⟨b, rest, hR, hrest, rfl⟩ := List.forall₂_cons_left_iff.mp h
  obtain rfl := List.forall₂_nil_left_iff.mp hrest
  exact ⟨b, rfl, hR⟩

/-- Lists that are related by way of a third list are related item by item. -/
theorem forall₂_comp {γ : Type w} {R : α → β → Prop} {S : β → γ → Prop} {as : List α} {bs : List β} {cs : List γ}
    (h : List.Forall₂ R as bs) (h' : List.Forall₂ S bs cs) :
    List.Forall₂ (fun a c => ∃ b, R a b ∧ S b c) as cs := by
  induction h generalizing cs with
  | nil =>
    obtain rfl := List.forall₂_nil_left_iff.mp h'
    exact .nil
  | cons hab _ ih =>
    obtain ⟨c, cs, hbc, hcs, rfl⟩ := List.forall₂_cons_left_iff.mp h'
    exact .cons ⟨_, hab, hbc⟩ (ih hcs)

/-- Where related items have the same value, related lists have the same values. -/
theorem map_eq_map_of_forall₂ {γ : Type w} {R : α → β → Prop} {as : List α} {bs : List β} (h : List.Forall₂ R as bs)
    {f : α → γ} {g : β → γ} (hR : ∀ a b, R a b → g b = f a) : bs.map g = as.map f := by
  induction h with
  | nil => rfl
  | cons hab _ ih => rw [List.map_cons, List.map_cons, ih, hR _ _ hab]

/-- What two lists are made of item by item is related when it is so for each item. -/
theorem forall₂_map_same_iff {ι : Type w} {R : α → β → Prop} {f : ι → α} {g : ι → β} {is : List ι} :
    List.Forall₂ R (is.map f) (is.map g) ↔ ∀ i ∈ is, R (f i) (g i) := by
  rw [List.forall₂_map_left_iff, List.forall₂_map_right_iff, List.forall₂_same]

/-- What exists for each item of two lists that belong together is a list that goes with the second one. -/
theorem exists_forall₂_of_exists {γ : Type w} {P : α → β → γ → Prop} {as : List α} {bs : List β}
    (h : List.Forall₂ (fun a b => ∃ c, P a b c) as bs) :
    ∃ zs : List (β × γ), zs.map (·.1) = bs ∧ List.Forall₂ (fun a z => P a z.1 z.2) as zs := by
  induction h with
  | nil => exact ⟨[], rfl, .nil⟩
  | cons hc _ ih =>
    obtain ⟨c, hc⟩ := hc
    obtain ⟨zs, rfl, hzs⟩ := ih
    exact ⟨(_, c) :: zs, rfl, .cons hc hzs⟩

theorem mem_zip_of_getElem? {as : List α} {bs : List β} {i : Nat} {a : α} {b : β} (ha : as[i]? = some a)
    (hb : bs[i]? = some b) : (a, b) ∈ as.zip bs :=
  List.mem_of_getElem? (List.getElem?_zip_eq_some.mpr ⟨ha, hb⟩)

end Phrasebook
