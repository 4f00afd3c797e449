import Phrasebook.Proofs.Traverse
import Phrasebook.Registry

/-!
# What fills a placeholder

A placeholder is filled by the parameter of its name, or else by the property. Whether it can be filled at all depends
on which of these are declared, and not on the values that they get.

- `ParamType.coerce_sample`: every type accepts some value, which shows as no placeholder.
- `Accessor.neverFilled_iff`: a placeholder that is never filled is neither a parameter nor a property.
- `Accessor.fillable_iff`: any other placeholder is filled once its property has an accepted value.
- `Accessor.fillable_iff_not_neverFilled`: there is no third case.
-/

namespace Phrasebook

/-! ## §1 Samples -/

/-- A value that a type accepts. -/
def ParamType.sample : ParamType → Json
  | .builtin .integer _ => .number (.integer 0)
  | .builtin .float _ => .number (.integer 0)
  | .builtin .text _ => .string ""
  | _ => .bool true

theorem ParamType.coerce_sample (t : ParamType) : t.coerce (some t.sample) = .ok t.sample := by
  cases t with
  | builtin kind nullable => cases kind <;> rfl
  | named name arguments nullable => rfl

theorem ParamType.sample_cases (t : ParamType) :
    t.sample = .number (.integer 0) ∨ t.sample = .string "" ∨ t.sample = .bool true := by
  cases t with
  | builtin kind nullable => cases kind <;> simp [sample]
  | named name arguments nullable => simp [sample]

/-- The sample is not shown as a placeholder is written. -/
theorem ParamType.display_sample_ne (t : ParamType) (name : String) :
    t.sample.display ≠ (Segment.placeholder name).written := by
  -- The two texts begin with different characters.
  have hbrace : (Segment.placeholder name).written.toList.head? = some '{' := by
    simp [Segment.written, Segment.chars, Segment.placeholderChars]
  have hsample : t.sample.display.toList.head? ≠ some '{' := by
    rcases t.sample_cases with h | h | h
    · rw [h]
      decide
    · rw [h]
      decide
    · rw [h]
      decide
  intro heq
  rw [heq] at hsample
  exact hsample hbrace

/-! ## §2 Properties -/

namespace Provider

variable {p : Provider} {name : String}

theorem properties_of_undeclared (h : p.propertyTypes.get? name = none) (bags : PropertyBags) :
    p.properties bags name = none := by
  simp only [properties, h]

/-- A bag in which one property has an accepted value. -/
theorem properties_insert {t : ParamType} (h : p.propertyTypes.get? name = some t) {v : Json}
    (hv : t.coerce (some v) = .ok v) : p.properties (fun _ => KeyMap.empty.insert name v) name = some v := by
  simp only [properties, h, KeyMap.get?_insert, ↓reduceIte, hv]
  rfl

end Provider

namespace Accessor

variable {a : Accessor} {name : String}

/-! ## §3 Parameters -/

/-- The samples of the parameters are accepted arguments. -/
theorem checkArguments_sample (a : Accessor) :
    a.checkArguments (a.schema.map fun p => p.type.sample) = .ok (a.schema.map fun p => p.type.sample) := by
  have hzip : a.schema.zip (a.schema.map fun p => p.type.sample) = a.schema.map fun p => (p, p.type.sample) := by
    have hself : (a.schema.map fun p => p).zip (a.schema.map fun p => p.type.sample)
        = a.schema.map fun p => (p, p.type.sample) := List.zip_map'
    rwa [List.map_id'] at hself
  have hlength : ¬ (a.schema.map fun p => p.type.sample).length ≠ a.schema.length := by simp
  rw [checkArguments, if_neg hlength, hzip, traverse_eq_ok_iff, forall₂_map_same_iff]
  intro p _
  rw [coerceArgument, mapError_eq_ok]
  exact p.type.coerce_sample

/-- A parameter that is found has a place. -/
theorem exists_position {p : Parameter} (h : a.schema.find? name = some p) :
    ∃ i, a.schema.position? name = some i ∧ a.schema[i]? = some p := by
  obtain ⟨hname, i, hi, hget, hbefore⟩ := List.find?_eq_some_iff_getElem.mp h
  refine ⟨i, ?_, hget ▸ List.getElem?_eq_getElem hi⟩
  rw [ParameterList.position?, List.findIdx?_eq_some_iff_getElem]
  refine ⟨hi, hget ▸ hname, fun j hj => ?_⟩
  simpa using hbefore j hj

theorem position?_eq_none (h : a.schema.find? name = none) : a.schema.position? name = none := by
  unfold ParameterList.position?
  rw [List.findIdx?_eq_none_iff]
  intro p hp
  simpa using List.find?_eq_none.mp h p hp

/-! ## §4 Filling -/

/-- Values that are accepted of arguments, in order or by name. -/
def Accepts (a : Accessor) (values : List Json) : Prop :=
  (∃ args, a.checkArguments args = .ok values) ∨ ∃ named, a.namedArguments named = .ok values

/-- Whatever the arguments and the properties are, a provider writes a placeholder back as it is. -/
def NeverFilled (a : Accessor) (p : Provider) (name : String) : Prop :=
  ∀ values, a.Accepts values → ∀ bags,
    Template.renderSegment (a.resolve values (p.properties bags)) (.placeholder name)
      = (Segment.placeholder name).written

/-- With some properties, a provider has a value for a placeholder whatever the arguments are. -/
def Fillable (a : Accessor) (p : Provider) (name : String) : Prop :=
  ∃ bags, ∀ values, a.Accepts values → ∃ value, a.resolve values (p.properties bags) name = some value

/-- There is one accepted value for each parameter. -/
theorem Accepts.length_eq {values : List Json} (h : a.Accepts values) : values.length = a.schema.length := by
  rcases h with ⟨args, hargs⟩ | ⟨named, hnamed⟩
  · unfold checkArguments at hargs
    split at hargs
    · cases hargs
    · rename_i hlength
      have hall := (traverse_eq_ok_iff.mp hargs).length_eq
      rw [List.length_zip, not_not.mp hlength, Nat.min_self] at hall
      exact hall.symm
  · exact (traverse_eq_ok_iff.mp hnamed).length_eq.symm

theorem accepts_sample (a : Accessor) : a.Accepts (a.schema.map fun p => p.type.sample) :=
  .inl ⟨_, a.checkArguments_sample⟩

variable {p : Provider}

theorem neverFilled_iff :
    a.NeverFilled p name ↔ a.schema.find? name = none ∧ p.propertyTypes.get? name = none := by
  refine ⟨fun h => ⟨?_, ?_⟩, fun h values _ bags => ?_⟩
  · -- The sample of a parameter would be shown.
    by_contra hsome
    obtain ⟨q, hq⟩ := Option.ne_none_iff_exists'.mp hsome
    obtain ⟨i, hi, hget⟩ := exists_position hq
    have hshown := h _ a.accepts_sample fun _ => .empty
    simp only [Template.renderSegment, resolve, hi, List.getElem?_map, hget, Option.map_some, Option.getD_some]
      at hshown
    exact q.type.display_sample_ne name hshown
  · -- So would the sample of a property, unless a parameter has its name.
    by_contra hsome
    obtain ⟨t, ht⟩ := Option.ne_none_iff_exists'.mp hsome
    have hshown := h _ a.accepts_sample fun _ => KeyMap.empty.insert name t.sample
    have hvalue := Provider.properties_insert ht t.coerce_sample
    cases hfind : a.schema.find? name with
    | some q =>
      obtain ⟨i, hi, hget⟩ := exists_position hfind
      simp only [Template.renderSegment, resolve, hi, List.getElem?_map, hget, Option.map_some, Option.getD_some]
        at hshown
      exact q.type.display_sample_ne name hshown
    | none =>
      simp only [Template.renderSegment, resolve, position?_eq_none hfind, hvalue, Option.map_some, Option.getD_some]
        at hshown
      exact t.display_sample_ne name hshown
  · obtain ⟨hparameter, hproperty⟩ := h
    simp [Template.renderSegment, resolve, position?_eq_none hparameter,
      Provider.properties_of_undeclared hproperty]

theorem fillable_iff :
    a.Fillable p name ↔ a.schema.find? name ≠ none ∨ p.propertyTypes.get? name ≠ none := by
  refine ⟨fun h => ?_, fun h => ?_⟩
  · obtain ⟨bags, hall⟩ := h
    obtain ⟨value, hvalue⟩ := hall _ a.accepts_sample
    by_contra hneither
    rw [not_or, not_not, not_not] at hneither
    simp [resolve, position?_eq_none hneither.1, Provider.properties_of_undeclared hneither.2] at hvalue
  · cases hfind : a.schema.find? name with
    | some q =>
      refine ⟨fun _ => .empty, fun values hvalues => ?_⟩
      obtain ⟨i, hi, hget⟩ := exists_position hfind
      -- The arguments are as many as the parameters, so there is one at this place.
      have hlt : i < values.length := by
        rw [hvalues.length_eq]
        exact (List.getElem?_eq_some_iff.mp hget).1
      refine ⟨values[i].display, ?_⟩
      simp only [resolve, hi, List.getElem?_eq_getElem hlt, Option.map_some]
    | none =>
      obtain ⟨t, ht⟩ := Option.ne_none_iff_exists'.mp (h.resolve_left fun hsome => hsome hfind)
      refine ⟨fun _ => KeyMap.empty.insert name t.sample, fun values _ => ⟨t.sample.display, ?_⟩⟩
      simp only [resolve, position?_eq_none hfind, Provider.properties_insert ht t.coerce_sample, Option.map_some]

theorem fillable_iff_not_neverFilled : a.Fillable p name ↔ ¬ a.NeverFilled p name := by
  rw [fillable_iff, neverFilled_iff, not_and_or]

end Accessor

end Phrasebook
