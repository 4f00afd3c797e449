import Phrasebook.Emission.Contract
import Phrasebook.Proofs.Compile.Calls

/-!
# Methods and the parameters of their keys

The parameters of the key of a method are the arguments of the method in their order, with the types that are written
there. In the table the places of a call are told apart by the roles of the parameters.

- `Forwarding.Carries`: what the method of a table has of a method of a contract.
- `Forwarding.Carries.arguments_iff`: its arguments are the places of the argument parameters.
- `ContractRun.exists_carries`: each method of a contract has such a method in the table.
- `MethodFunction.parameters_ofForwarding`: the types in the function of the method.
-/

namespace Phrasebook

open Phrasebook.Name

/-! ## §1 Places of a call -/

/-- A method of a table has the parameters of a method of a contract, and its key has those that are arguments. -/
structure Forwarding.Carries (f : Forwarding) (m : Method) (schema : ParameterList) : Prop
    extends f.Serves m schema where
  name : f.name = m.name
  names : f.parameters = m.parameters.map (·.name)
  /-- No two parameters have the same identifier. -/
  distinct : (m.parameters.map fun q => ofParameter q.name).Nodup
  /-- Only the slot is the place of a locale. -/
  slot : ∀ i q, m.parameters[i]? = some q → q.role = .locale → i = f.localeSlot
  reads : List.Forall₂ Declaration.ReadsAs (m.parameters.filter fun q => q.role = .argument) schema

namespace Forwarding.Carries

variable {f : Forwarding} {m : Method} {schema : ParameterList} (h : f.Carries m schema)
include h

/-- There is only one locale. -/
theorem eq_of_locale {q q' : MethodParameter} (hq : q ∈ m.parameters) (hrole : q.role = .locale)
    (hq' : q' ∈ m.parameters) (hrole' : q'.role = .locale) : q = q' := by
  obtain ⟨i, hi⟩ := List.mem_iff_getElem?.mp hq
  obtain ⟨j, hj⟩ := List.mem_iff_getElem?.mp hq'
  rw [h.slot i q hi hrole] at hi
  rw [h.slot j q' hj hrole'] at hj
  exact Option.some.inj (hi.symm.trans hj)

theorem names_schema : schema.map (·.name) = (m.parameters.filter fun q => q.role = .argument).map (·.name) :=
  map_eq_map_of_forall₂ h.reads fun _ _ hreads => hreads.1

theorem nodup_names : (m.parameters.map (·.name)).Nodup := by
  have hdistinct := h.distinct
  rw [← Function.comp_def ofParameter, ← List.map_map] at hdistinct
  exact List.Nodup.of_map _ hdistinct

theorem nodup_schema : (schema.map (·.name)).Nodup := by
  rw [h.names_schema]
  exact h.nodup_names.sublist (List.filter_sublist.map _)

/-- A name stands at one place only. -/
theorem place_unique {i j : Nat} {q q' : MethodParameter} (hi : m.parameters[i]? = some q)
    (hj : m.parameters[j]? = some q') (hname : q.name = q'.name) : i = j := by
  have hsame : (m.parameters.map (·.name))[i]? = (m.parameters.map (·.name))[j]? := by
    rw [List.getElem?_map, List.getElem?_map, hi, hj, Option.map_some, Option.map_some, hname]
  have hlt : i < (m.parameters.map (·.name)).length := by
    rw [List.length_map]
    exact (List.getElem?_eq_some_iff.mp hi).1
  exact (List.getElem?_inj hlt h.nodup_names).mp hsame

/-- An argument is a parameter of the key, with the type that is written in the method. -/
theorem exists_parameter {q : MethodParameter} (hq : q ∈ m.parameters) (hrole : q.role = .argument) :
    ∃ p ∈ schema, p.name = q.name ∧ ParamType.parse q.type = .ok p.type := by
  obtain ⟨p, hp, hreads⟩ := exists_of_forall₂_of_mem h.reads (List.mem_filter.mpr ⟨hq, by simpa using hrole⟩)
  exact ⟨p, hp, hreads⟩

/-- A parameter of the key is the argument of its name. -/
theorem parse_of_name {q : MethodParameter} (hq : q ∈ m.parameters) (hrole : q.role = .argument) {p : Parameter}
    (hp : p ∈ schema) (hname : q.name = p.name) : ParamType.parse q.type = .ok p.type := by
  obtain ⟨p', hp', hname', hparse⟩ := h.exists_parameter hq hrole
  obtain rfl : p' = p := List.inj_on_of_nodup_map h.nodup_schema hp' hp (hname'.trans hname)
  exact hparse

theorem find?_schema {q : MethodParameter} (hq : q ∈ m.parameters) (hrole : q.role = .argument) :
    ∃ p, ParameterList.find? schema q.name = some p ∧ ParamType.parse q.type = .ok p.type := by
  obtain ⟨p, hp, hname, hparse⟩ := h.exists_parameter hq hrole
  refine ⟨p, ?_, hparse⟩
  cases hfind : ParameterList.find? schema q.name with
  | none =>
    have hnot := List.find?_eq_none.mp hfind p hp
    simp [hname] at hnot
  | some p' =>
    have hname' : p'.name = q.name := by simpa using List.find?_some hfind
    rw [List.inj_on_of_nodup_map h.nodup_schema (List.mem_of_find?_eq_some hfind) hp (hname'.trans hname.symm)]

/-- The arguments are passed on, and nothing else. -/
theorem arguments_iff {i : Nat} {q : MethodParameter} (hq : m.parameters[i]? = some q) :
    i ∈ f.arguments ↔ q.role = .argument := by
  refine ⟨fun hi => ?_, fun hrole => ?_⟩
  · obtain ⟨p, -, q', hq', hrole, -⟩ := exists_of_forall₂_of_mem_right h.arguments hi
    obtain rfl : q = q' := Option.some.inj (hq.symm.trans hq')
    exact hrole
  · obtain ⟨p, hp, hname, -⟩ := h.exists_parameter (List.mem_of_getElem? hq) hrole
    obtain ⟨j, hj, q', hq', -, hname'⟩ := exists_of_forall₂_of_mem h.arguments hp
    -- The place that stands for the parameter is the one of its name, hence `i`.
    rwa [h.place_unique hq hq' (hname.symm.trans hname'.symm)]

end Forwarding.Carries

namespace Compile

/-- Each method of a contract has a method in the table that carries its parameters, and an accessor of its key. -/
theorem ContractRun.exists_carries {s : Settings} {loader : SourceLoader} (r : ContractRun s loader) {m : Method}
    (hm : m ∈ r.contract.methods) :
    ∃ f a, r.table.methods.get? m.name = some f ∧ r.table.accessors.get? m.keyName = some a ∧
      f.Carries m a.schema := by
  obtain ⟨f, a, hf, ha, hserves⟩ := r.exists_forwarding hm
  obtain ⟨d, hd, hof⟩ := exists_of_forall₂_of_mem (declarations_eq_ok_iff.mp r.declared) hm
  obtain ⟨e, a', -, -, ha', hschema⟩ := r.exists_accessor_of_declaration hd
  obtain ⟨slot, ps, hslots, hps, rfl⟩ := Declaration.ofMethod_eq_ok_iff.mp hof
  obtain rfl : a' = a := Option.some.inj (ha'.symm.trans ha)
  obtain ⟨d', hd', hname', hfd⟩ := (Table.get?_methods_eq_some_iff r.generated).mp hf
  -- Methods have distinct names, so the declaration of the forwarding is that of the method.
  have hnodup := (Table.ofCatalog_eq_ok_iff.mp r.generated).1.2.2.1
  obtain rfl := List.inj_on_of_nodup_map hnodup hd' hd hname'
  obtain ⟨e, places, -, -, rfl⟩ := Table.forwardingOf_eq_ok_iff.mp hfd
  have hdistinct := (Table.ofCatalog_eq_ok_iff.mp r.generated).1.2.2.2 _ hd
  rw [List.map_map] at hdistinct
  refine ⟨_, a', hf, ha, hserves, rfl, rfl, hdistinct, fun i q hq hrole => ?_, ?_⟩
  · have hslot := Declaration.mem_localeSlots_iff.mpr ⟨q, hq, hrole⟩
    rw [hslots] at hslot
    exact List.mem_singleton.mp hslot
  · rw [hschema]
    exact (Declaration.readParameters_eq_ok_iff.mp hps).2

end Compile

/-! ## §2 Types of a call -/

/-- The type of a parameter of a method in its function: the locale has one of its own, an argument that of its type,
and any other parameter may be anything. -/
def MethodParameter.hostType (q : MethodParameter) : String :=
  match q.role with
  | .locale => "Locale"
  | .argument => match ParamType.parse q.type with
    | .ok t => t.borrowedType
    | .error _ => "impl Sized"
  | .ignored => "impl Sized"

namespace MethodFunction

variable {f : Forwarding} {m : Method} {a : Accessor} (h : f.Carries m a.schema)
include h

/-- The type at a place is that of the parameter there. -/
theorem parameterType_eq {i : Nat} {q : MethodParameter} (hq : m.parameters[i]? = some q) :
    parameterType f a i q.name = q.hostType := by
  have hmem := List.mem_of_getElem? hq
  -- Only the parameter for the locale stands at its place.
  have hother : q.role ≠ .locale → i ≠ f.localeSlot := by
    rintro hrole rfl
    obtain ⟨q', hq', hrole'⟩ := h.locale
    obtain rfl : q = q' := Option.some.inj (hq.symm.trans hq')
    exact hrole hrole'
  have hcontains : f.arguments.contains i = true ↔ q.role = .argument := by
    rw [List.contains_iff_mem, h.arguments_iff hq]
  unfold parameterType MethodParameter.hostType
  cases hrole : q.role with
  | locale => rw [if_pos (h.slot i q hq hrole)]
  | argument =>
    obtain ⟨p, hfind, hparse⟩ := h.find?_schema hmem hrole
    rw [if_neg (hother (by simp [hrole])), hfind, hparse]
    simp only [hcontains.mpr hrole, ↓reduceIte]
  | ignored =>
    have hnot : f.arguments.contains i = false := by
      rw [← Bool.not_eq_true, hcontains, hrole]
      decide
    rw [if_neg (hother (by simp [hrole]))]
    simp only [hnot, Bool.false_eq_true, ↓reduceIte]
    -- The type of a parameter that is ignored is not looked at.
    split <;> rfl

/-- The function of a method has the properties and the parameters of the method, in their order. -/
theorem parameters_ofForwarding :
    (ofForwarding f a).parameters
      = propertiesParameter :: m.parameters.map fun q => ⟨ofParameter q.name, q.hostType⟩ := by
  have hall : (f.parameters.zipIdx.map fun p => (⟨ofParameter p.1, parameterType f a p.2 p.1⟩ : FunctionParameter))
      = m.parameters.map fun q => ⟨ofParameter q.name, q.hostType⟩ := by
    apply List.ext_getElem
    · simp [h.names]
    · intro i hleft hright
      rw [List.length_map] at hright
      have hq : m.parameters[i]? = some m.parameters[i] := List.getElem?_eq_getElem hright
      simp only [List.getElem_map, List.getElem_zipIdx, h.names, Nat.zero_add, parameterType_eq h hq]
  show propertiesParameter :: _ = _
  rw [hall]

theorem identAt_eq {i : Nat} {q : MethodParameter} (hq : m.parameters[i]? = some q) :
    identAt f i = ofParameter q.name := by
  rw [identAt, h.names, List.getElem?_map, hq]
  rfl

/-- It passes on the locale, the properties and one argument for each parameter of the key. -/
theorem arguments_ofForwarding :
    ∃ l ∈ m.parameters, l.role = .locale ∧
      (ofForwarding f a).arguments = ofParameter l.name :: "props" :: a.schema.map fun p => ofParameter p.name := by
  obtain ⟨l, hl, hrole⟩ := h.locale
  refine ⟨l, List.mem_of_getElem? hl, hrole, ?_⟩
  have harguments : f.arguments.map (identAt f) = a.schema.map fun p => ofParameter p.name := by
    refine map_eq_map_of_forall₂ h.arguments fun p i hplace => ?_
    obtain ⟨q, hq, -, hname⟩ := hplace
    rw [identAt_eq h hq, hname]
  show identAt f f.localeSlot :: "props" :: f.arguments.map (identAt f) = _
  rw [identAt_eq h hl, harguments]

end MethodFunction

end Phrasebook
