import Phrasebook.Contract.Declaration
import Phrasebook.Proofs.Name.Distinct
import Phrasebook.Proofs.Traverse

/-!
# What methods declare

A method that can be read has one place for the locale and parameters of distinct names; its declaration has the
key of the method, and the parameters that are arguments in the order of the method.
-/

namespace Phrasebook

open Phrasebook.Name

namespace Declaration

/-! ## §1 Parameters of a method -/

/-- A parameter of a key is the argument of a method. -/
def ReadsAs (m : MethodParameter) (p : Parameter) : Prop := p.name = m.name ∧ ParamType.parse m.type = .ok p.type

/-- Parameters can be read exactly when their names are new and distinct and the types of arguments can be read. -/
theorem readParameters_eq_ok_iff {seen : List String} {ms : List MethodParameter} {ps : ParameterList} :
    readParameters seen ms = .ok ps ↔
      Fresh seen (ms.map (·.name)) ∧ List.Forall₂ ReadsAs (ms.filter fun m => m.role = .argument) ps := by
  induction ms generalizing seen ps with
  | nil => simp [readParameters, eq_comm]
  | cons m ms ih =>
    have hnext : Fresh (seen ++ [m.name]) (ms.map (·.name)) ↔ Fresh (m.name :: seen) (ms.map (·.name)) :=
      fresh_congr fun name => by simp [or_comm]
    rw [readParameters, List.map_cons, fresh_cons_iff]
    by_cases hseen : m.name ∈ seen
    · simp [hseen]
    · have hcontains : seen.contains m.name = false := by simpa using hseen
      simp only [hcontains, Bool.false_eq_true, ↓reduceIte, hseen, not_false_eq_true, true_and]
      by_cases hrole : m.role = .argument
      · rw [List.filter_cons_of_pos (by simpa using hrole), hrole]
        cases hparse : ParamType.parse m.type with
        | error e => simp [List.forall₂_cons_left_iff, ReadsAs, hparse]
        | ok type =>
          simp only [map_eq_ok, ih, hnext, List.forall₂_cons_left_iff, ReadsAs, hparse, Except.ok.injEq]
          refine ⟨fun h => ?_, fun h => ?_⟩
          · obtain ⟨ps', ⟨hfresh, hps⟩, rfl⟩ := h
            exact ⟨hfresh, ⟨m.name, type⟩, ps', ⟨rfl, rfl⟩, hps, rfl⟩
          · obtain ⟨hfresh, ⟨name, type'⟩, ps', ⟨rfl, rfl⟩, hps, rfl⟩ := h
            exact ⟨ps', ⟨hfresh, hps⟩, rfl⟩
      · -- A parameter that is no argument only has its name seen.
        rw [List.filter_cons_of_neg (by simpa using hrole), ← hnext, ← ih]
        cases hr : m.role with
        | argument => exact absurd hr hrole
        | locale => rfl
        | ignored => rfl

/-- Each parameter of a key is read from an argument of its name. -/
theorem exists_argument_of_readParameters {ms : List MethodParameter} {ps : ParameterList}
    (h : readParameters [] ms = .ok ps) {p : Parameter} (hp : p ∈ ps) :
    ∃ m ∈ ms, m.role = .argument ∧ m.name = p.name := by
  have hall := (readParameters_eq_ok_iff.mp h).2
  obtain ⟨m, hm, hreads⟩ := exists_of_forall₂_of_mem_right hall hp
  obtain ⟨hmem, hrole⟩ := List.mem_filter.mp hm
  exact ⟨m, hmem, by simpa using hrole, hreads.1.symm⟩

theorem names_nodup_of_readParameters {ms : List MethodParameter} {ps : ParameterList}
    (h : readParameters [] ms = .ok ps) : (ms.map (·.name)).Nodup :=
  fresh_nil_left_iff.mp (readParameters_eq_ok_iff.mp h).1

/-! ## §2 Methods -/

/-- The places of the locale are those of the locale parameters. -/
theorem mem_localeSlots_iff {ms : List MethodParameter} {i : Nat} :
    i ∈ localeSlots ms ↔ ∃ m, ms[i]? = some m ∧ m.role = .locale := by
  unfold localeSlots
  rw [List.mem_map]
  refine ⟨fun h => ?_, fun h => ?_⟩
  · obtain ⟨⟨m, j⟩, hmem, rfl⟩ := h
    obtain ⟨hzip, hrole⟩ := List.mem_filter.mp hmem
    exact ⟨m, List.mem_zipIdx_iff_getElem?.mp hzip, by simpa using hrole⟩
  · obtain ⟨m, hget, hrole⟩ := h
    refine ⟨(m, i), List.mem_filter.mpr ⟨?_, by simpa using hrole⟩, rfl⟩
    exact List.mem_zipIdx_iff_getElem?.mpr hget

/-- A method can be read exactly when it has one locale and its parameters can be read. -/
theorem ofMethod_eq_ok_iff {m : Method} {d : Declaration} :
    ofMethod m = .ok d ↔
      ∃ slot ps, localeSlots m.parameters = [slot] ∧ readParameters [] m.parameters = .ok ps ∧
        d = ⟨m.name, m.keyName, ps, slot, m.parameters.map (·.name)⟩ := by
  unfold ofMethod
  split
  · rename_i slot hslots
    simp only [map_eq_ok, hslots, List.cons.injEq, and_true, exists_and_left, exists_eq_left']
  · rename_i hslots
    simp only [reduceCtorEq, false_iff, not_exists, not_and]
    intro slot ps h
    exact absurd h (hslots slot)

end Declaration

theorem declarations_eq_ok_iff {c : Contract} {ds : List Declaration} :
    c.declarations = .ok ds ↔ List.Forall₂ (fun m d => Declaration.ofMethod m = .ok d) c.methods ds := by
  simp only [Contract.declarations, traverse_eq_ok_iff, Declaration.ofContractMethod, mapError_eq_ok]

/-- A declaration takes its name, its key and the names of its parameters over from its method. -/
theorem Declaration.of_ofMethod {m : Method} {d : Declaration} (h : ofMethod m = .ok d) :
    d.method = m.name ∧ d.key = m.keyName ∧ d.methodParameters = m.parameters.map (·.name) := by
  obtain ⟨slot, ps, -, -, rfl⟩ := ofMethod_eq_ok_iff.mp h
  exact ⟨rfl, rfl, rfl⟩

/-- The declarations of a contract have the keys of its methods. -/
theorem keys_of_declarations {c : Contract} {ds : List Declaration} (h : c.declarations = .ok ds) :
    ds.map (·.key) = c.methods.map Method.keyName :=
  map_eq_map_of_forall₂ (declarations_eq_ok_iff.mp h) fun _ _ hd => (Declaration.of_ofMethod hd).2.1

/-- And they have the names of its methods. -/
theorem methods_of_declarations {c : Contract} {ds : List Declaration} (h : c.declarations = .ok ds) :
    ds.map (·.method) = c.methods.map (·.name) :=
  map_eq_map_of_forall₂ (declarations_eq_ok_iff.mp h) fun _ _ hd => (Declaration.of_ofMethod hd).1

end Phrasebook
