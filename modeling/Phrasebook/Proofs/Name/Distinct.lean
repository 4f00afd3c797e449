import Phrasebook.CompileError
import Mathlib.Tactic.ByContra

/-!
# Distinct names

A check of names goes through a list and keeps what it has seen. It passes exactly when no name, or no identifier of a
name, is there twice.

- `Fresh`: names that are new to those seen before and distinct; `fresh_cons_iff` is one step of a check.
- `ensureDistinct_eq_ok_iff`: when the identifiers of names are distinct.
- `of_firstCollision?`, `of_ensureDistinct`: a collision is one of two names at different places.
-/

namespace Phrasebook

namespace Name

/-! ## §1 New names -/

/-- Names that are new to those seen before, and of which none is there twice. -/
def Fresh (seen names : List String) : Prop := (∀ name ∈ names, name ∉ seen) ∧ names.Nodup

@[simp] theorem fresh_nil (seen : List String) : Fresh seen [] := by
  simp [Fresh]

@[simp] theorem fresh_nil_left_iff {names : List String} : Fresh [] names ↔ names.Nodup := by
  simp [Fresh]

/-- The first name is new, and the others are new to it too. -/
theorem fresh_cons_iff {seen names : List String} {name : String} :
    Fresh seen (name :: names) ↔ name ∉ seen ∧ Fresh (name :: seen) names := by
  rw [Fresh, Fresh, List.forall_mem_cons, List.nodup_cons]
  simp only [List.mem_cons, not_or]
  refine ⟨fun h => ?_, fun h => ?_⟩
  · obtain ⟨⟨hname, hseen⟩, hself, hnodup⟩ := h
    -- A later name that is `name` again would be a member of `names`.
    have hother : ∀ n ∈ names, n ≠ name := fun n hn heq => hself (heq ▸ hn)
    exact ⟨hname, fun n hn => ⟨hother n hn, hseen n hn⟩, hnodup⟩
  · obtain ⟨hname, hall, hnodup⟩ := h
    have hself : name ∉ names := fun hmem => (hall name hmem).1 rfl
    exact ⟨⟨hname, fun n hn => (hall n hn).2⟩, hself, hnodup⟩

/-- It does not matter in which order names were seen. -/
theorem fresh_congr {seen seen' names : List String} (h : ∀ name, name ∈ seen ↔ name ∈ seen') :
    Fresh seen names ↔ Fresh seen' names := by
  simp only [Fresh, h]

/-! ## §2 Identifiers -/

private theorem lookup_eq_none_iff_not_mem {k : String} {seen : List (String × String)} :
    seen.lookup k = none ↔ k ∉ seen.map (·.1) := by
  rw [List.lookup_eq_none_iff, List.mem_map, not_exists]
  refine ⟨fun hall e he => ?_, fun hnot e hmem => ?_⟩
  · have hne := hall e he.1
    simp [he.2] at hne
  · have hne : k ≠ e.1 := fun heq => hnot e ⟨hmem, heq.symm⟩
    simpa using hne

private theorem collisionAfter_eq_none_iff {derive : String → String} {seen : List (String × String)}
    {names : List String} :
    collisionAfter derive seen names = none ↔ Fresh (seen.map (·.1)) (names.map derive) := by
  induction names generalizing seen with
  | nil => simp [collisionAfter]
  | cons name names ih =>
    rw [collisionAfter, List.map_cons, fresh_cons_iff]
    cases hlookup : seen.lookup (derive name) with
    | some earlier =>
      have hseen : derive name ∈ seen.map (·.1) := by
        by_contra hnot
        rw [lookup_eq_none_iff_not_mem.mpr hnot] at hlookup
        cases hlookup
      simp only [hseen, reduceCtorEq, not_true_eq_false, false_and]
    | none =>
      have hseen : derive name ∉ seen.map (·.1) := lookup_eq_none_iff_not_mem.mp hlookup
      simp only [ih, List.map_cons, hseen, not_false_eq_true, true_and]

private theorem of_collisionAfter {derive : String → String} {seen : List (String × String)} {names : List String}
    {c : Collision} (h : collisionAfter derive seen names = some c) :
    derive c.second = c.ident ∧
      ((c.ident, c.first) ∈ seen ∧ c.second ∈ names ∨
        derive c.first = c.ident ∧ [c.first, c.second].Sublist names) := by
  induction names generalizing seen with
  | nil => cases h
  | cons name names ih =>
    rw [collisionAfter] at h
    cases hlookup : seen.lookup (derive name) with
    | some earlier =>
      simp only [hlookup, Option.some.injEq] at h
      subst h
      obtain ⟨before, behind, rfl, -⟩ := List.lookup_eq_some_iff.mp hlookup
      exact ⟨rfl, .inl ⟨by simp, List.mem_cons_self⟩⟩
    | none =>
      simp only [hlookup] at h
      obtain ⟨hsecond, hfirst⟩ := ih h
      refine ⟨hsecond, ?_⟩
      -- The first name was seen before `name`, is `name` itself, or stands behind it.
      rcases hfirst with ⟨hseen, hmem⟩ | ⟨hident, hsub⟩
      · rcases List.mem_cons.mp hseen with heq | hseen
        · obtain ⟨hident, hname⟩ := Prod.mk.inj heq
          refine .inr ⟨hname ▸ hident.symm, ?_⟩
          rw [hname]
          exact (List.singleton_sublist.mpr hmem).cons_cons name
        · exact .inl ⟨hseen, List.mem_cons_of_mem name hmem⟩
      · exact .inr ⟨hident, hsub.cons name⟩

/-- A collision is one of two names at different places with one identifier. -/
theorem of_firstCollision? {derive : String → String} {names : List String} {c : Collision}
    (h : firstCollision? derive names = some c) :
    [c.first, c.second].Sublist names ∧ derive c.first = c.ident ∧ derive c.second = c.ident := by
  obtain ⟨hsecond, hfirst⟩ := of_collisionAfter h
  rcases hfirst with ⟨hseen, -⟩ | ⟨hident, hsub⟩
  · cases hseen
  · exact ⟨hsub, hident, hsecond⟩

theorem firstCollision?_eq_none_iff {derive : String → String} {names : List String} :
    firstCollision? derive names = none ↔ (names.map derive).Nodup := by
  rw [firstCollision?, collisionAfter_eq_none_iff]
  exact fresh_nil_left_iff

/-- Two names at different places of a list have the identifier. -/
def Collision.Among (c : Collision) (derive : String → String) (names : List String) : Prop :=
  [c.first, c.second].Sublist names ∧ derive c.first = c.ident ∧ derive c.second = c.ident

end Name

/-- The check passes exactly when the identifiers of the names are distinct. -/
theorem ensureDistinct_eq_ok_iff {scope : Scope} {derive : String → String} {names : List String} {u : Unit} :
    ensureDistinct scope derive names = .ok u ↔ (names.map derive).Nodup := by
  rw [← Name.firstCollision?_eq_none_iff, ensureDistinct]
  cases Name.firstCollision? derive names <;> simp

/-- The check fails on a collision of the names. -/
theorem exists_collision_of_ensureDistinct {scope : Scope} {derive : String → String} {names : List String}
    {e : CompileError} (h : ensureDistinct scope derive names = .error e) :
    ∃ c : Name.Collision, e = .identifierCollision scope c ∧ c.Among derive names := by
  unfold ensureDistinct at h
  split at h
  · rename_i c found
    exact ⟨c, (Except.error.inj h).symm, Name.of_firstCollision? found⟩
  · cases h

theorem of_ensureDistinct {scope scope' : Scope} {derive : String → String} {names : List String} {c : Name.Collision}
    (h : ensureDistinct scope derive names = .error (.identifierCollision scope' c)) :
    scope' = scope ∧ c.Among derive names := by
  obtain ⟨c', heq, hamong⟩ := exists_collision_of_ensureDistinct h
  obtain ⟨rfl, rfl⟩ := CompileError.identifierCollision.inj heq
  exact ⟨rfl, hamong⟩

end Phrasebook
