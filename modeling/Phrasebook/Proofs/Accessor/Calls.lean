import Phrasebook.Accessor.Table
import Phrasebook.Contract.Basic
import Phrasebook.Proofs.Traverse
import Mathlib.Data.List.Nodup

/-!
# Calls of a table

The ways to render a key differ only in how the arguments reach its accessor.

## Layers

- `render_of_accepted`, `renderByName_of_accepted`: what is rendered with accepted arguments.
- `render_eq_renderByName`: arguments in order and arguments by name give the same text or the same error.
- `renderByName_eq_of_null`: an argument that may be null may be left out.
- `Forwarding.Serves`: a method passes the locale and the arguments of a contract's method on; `invoke_eq_renderByName`
  and `invoke_eq_of_ignored` say what follows.
-/

namespace Phrasebook

/-! ## §1 Arguments of an accessor -/

/-- A value is given by name to each parameter. -/
def GivenBy (named : List (String × Json)) (schema : ParameterList) (args : List Json) : Prop :=
  List.Forall₂ (fun p v => Json.field? p.name named = some v) schema args

namespace Accessor

variable {a : Accessor}

/-- An accessor without a template for a locale renders its key. -/
theorem renderAccepted_of_select_eq_none {locale : String} (h : a.select locale = none)
    (args : List Json) (properties : PropertySource) : a.renderAccepted locale args properties = a.key := by
  rw [renderAccepted, h]

/-- The same values are accepted, or the same one is refused first, in order and by name. -/
theorem checkArguments_eq_namedArguments {named : List (String × Json)} {args : List Json}
    (h : GivenBy named a.schema args) : a.checkArguments args = a.namedArguments named := by
  have hlength : args.length = a.schema.length := h.length_eq.symm
  rw [checkArguments, if_neg (not_not.mpr hlength), namedArguments]
  -- Both ways go through the parameters in their order, so the same one is refused first.
  clear hlength
  unfold GivenBy at h
  generalize a.schema = ps at h
  induction h with
  | nil => rfl
  | cons hv _ ih =>
    rw [List.zip_cons_cons, traverse, traverse, ih, hv]

/-- Only what is given to the parameters counts. -/
theorem namedArguments_congr {named named' : List (String × Json)}
    (h : ∀ p ∈ a.schema, p.type.coerce (Json.field? p.name named) = p.type.coerce (Json.field? p.name named')) :
    a.namedArguments named = a.namedArguments named' := by
  unfold namedArguments
  apply traverse_congr
  intro p hp
  rw [coerceArgument, coerceArgument, h p hp]

end Accessor

/-- A type that admits null treats a value that is not given as null. -/
theorem ParamType.coerce_none {t : ParamType} (h : t.nullable = true) : t.coerce none = t.coerce (some .null) := by
  rw [coerce, coerce, if_pos h, if_pos h]

/-! ## §2 Calls by key -/

namespace Table

variable {t : Table} {key locale : String} {a : Accessor} {properties : PropertySource}

theorem checkLocale_of_mem (h : locale ∈ t.locales) : t.checkLocale locale = .ok () := by
  simp [checkLocale, h]

theorem lookup_of_get? (h : t.accessors.get? key = some a) : t.lookup key = .ok a := by
  rw [lookup, h]

/-- By name, a key is rendered by its accessor once the locale is known. -/
theorem renderByName_of_get? (ha : t.accessors.get? key = some a) (named : List (String × Json)) :
    t.renderByName key locale named properties
      = (t.checkLocale locale).bind fun _ =>
          (a.namedArguments named).map fun accepted => a.renderAccepted locale accepted properties := by
  rw [renderByName, lookup_of_get? ha]
  cases t.checkLocale locale with
  | error e => rfl
  | ok u =>
    show (do let accepted ← a.namedArguments named; return a.renderAccepted locale accepted properties) = _
    cases a.namedArguments named <;> rfl

/-- In order, too. -/
theorem render_of_get? (ha : t.accessors.get? key = some a) (args : List Json) :
    t.render key locale args properties
      = (t.checkLocale locale).bind fun _ =>
          (a.checkArguments args).map fun accepted => a.renderAccepted locale accepted properties := by
  rw [render, lookup_of_get? ha]
  cases t.checkLocale locale <;> rfl

theorem render_of_accepted (hlocale : locale ∈ t.locales) (ha : t.accessors.get? key = some a)
    {args accepted : List Json} (hargs : a.checkArguments args = .ok accepted) :
    t.render key locale args properties = .ok (a.renderAccepted locale accepted properties) := by
  rw [render_of_get? ha, checkLocale_of_mem hlocale, hargs]
  rfl

theorem renderByName_of_accepted (hlocale : locale ∈ t.locales) (ha : t.accessors.get? key = some a)
    {named : List (String × Json)} {accepted : List Json} (hargs : a.namedArguments named = .ok accepted) :
    t.renderByName key locale named properties = .ok (a.renderAccepted locale accepted properties) := by
  rw [renderByName_of_get? ha, checkLocale_of_mem hlocale, hargs]
  rfl

/-- Arguments in order and the same arguments by name give the same text or the same error, whatever else is
named. -/
theorem render_eq_renderByName (ha : t.accessors.get? key = some a) {named : List (String × Json)}
    {args : List Json} (h : GivenBy named a.schema args) :
    t.render key locale args properties = t.renderByName key locale named properties := by
  rw [render_of_get? ha, renderByName_of_get? ha, Accessor.checkArguments_eq_namedArguments h]

/-- An argument that may be null may be left out. -/
theorem renderByName_eq_of_null (ha : t.accessors.get? key = some a) (hnodup : a.schema.names.Nodup)
    {p : Parameter} (hp : p ∈ a.schema) (hnullable : p.type.nullable = true) {named named' : List (String × Json)}
    (hout : Json.field? p.name named = none) (hnull : Json.field? p.name named' = some .null)
    (hrest : ∀ name, name ≠ p.name → Json.field? name named = Json.field? name named') :
    t.renderByName key locale named properties = t.renderByName key locale named' properties := by
  rw [renderByName_of_get? ha, renderByName_of_get? ha]
  have hsame : a.namedArguments named = a.namedArguments named' := by
    apply Accessor.namedArguments_congr
    intro q hq
    by_cases hname : q.name = p.name
    · -- No other parameter has the name of `p`, so `q` admits null too.
      obtain rfl : q = p := List.inj_on_of_nodup_map hnodup hq hp hname
      rw [hout, hnull, ParamType.coerce_none hnullable]
    · rw [hrest q.name hname]
  rw [hsame]

end Table

/-! ## §3 Calls of methods -/

/-- A method of a table passes on what a method of a contract is called with: the value at the place of its locale,
and for each parameter of the key the value of the argument of its name. -/
structure Forwarding.Serves (f : Forwarding) (m : Method) (schema : ParameterList) : Prop where
  /-- It renders the key of the method. -/
  key : f.key = m.keyName
  parameters : f.parameters.length = m.parameters.length
  locale : ∃ q, m.parameters[f.localeSlot]? = some q ∧ q.role = .locale
  /-- The arguments are taken from the argument parameters of their names. -/
  arguments : List.Forall₂ (fun p i => ∃ q, m.parameters[i]? = some q ∧ q.role = .argument ∧ q.name = p.name)
    schema f.arguments

namespace Table

variable {t : Table} {m : Method} {f : Forwarding} {a : Accessor} {properties : PropertySource}

/-- The values at the places of the arguments are those of the argument parameters of their names. -/
theorem forall₂_arguments {schema : ParameterList} (hserves : f.Serves m schema) {args : List Json}
    (hlength : args.length = m.parameters.length) :
    List.Forall₂ (fun p v => ∃ q, (q, v) ∈ m.parameters.zip args ∧ q.role = .argument ∧ q.name = p.name)
      schema (f.arguments.filterMap fun i => args[i]?) := by
  have harguments := hserves.arguments
  clear hserves
  generalize f.arguments = is at harguments
  -- By induction on the places of the arguments; nothing else of the forwarding is used.
  induction harguments with
  | nil => exact .nil
  | @cons p i ps is hplace _ ih =>
    obtain ⟨q, hq, hrole, hname⟩ := hplace
    have hi : i < args.length := by
      rw [hlength]
      exact (List.getElem?_eq_some_iff.mp hq).1
    have hvalue : args[i]? = some args[i] := List.getElem?_eq_getElem hi
    have hmem : (q, args[i]) ∈ m.parameters.zip args := by
      apply List.mem_of_getElem?
      exact List.getElem?_zip_eq_some.mpr ⟨hq, hvalue⟩
    rw [List.filterMap_cons_some hvalue]
    exact .cons ⟨q, hmem, hrole, hname⟩ ih

/-- So they are the values that are given by these names. -/
theorem givenBy_arguments (hserves : f.Serves m a.schema) {args : List Json}
    (hlength : args.length = m.parameters.length) {named : List (String × Json)}
    (hnamed : ∀ x ∈ m.parameters.zip args, x.1.role = .argument → Json.field? x.1.name named = some x.2) :
    GivenBy named a.schema (f.arguments.filterMap fun i => args[i]?) := by
  refine (forall₂_arguments hserves hlength).imp fun p v hv => ?_
  obtain ⟨q, hmem, hrole, hname⟩ := hv
  rw [← hname]
  exact hnamed _ hmem hrole

/-- A method with as many arguments as it has parameters, a locale among them, renders its key. -/
theorem invoke_of_localeOf {method locale : String} {args : List Json} (hf : t.methods.get? method = some f)
    (hlength : args.length = f.parameters.length) (hlocale : localeOf f args = .ok locale) :
    t.invoke method args properties = t.render f.key locale (f.arguments.filterMap fun i => args[i]?) properties := by
  simp only [invoke, hf, hlength, ne_eq, not_true_eq_false, ↓reduceIte, hlocale]
  rfl

/-- A call of a method is a call by name with its locale and its arguments. -/
theorem invoke_eq_renderByName (hf : t.methods.get? m.name = some f) (ha : t.accessors.get? m.keyName = some a)
    (hserves : f.Serves m a.schema) {args : List Json} (hlength : args.length = m.parameters.length)
    {locale : String} (hlocale : ∀ x ∈ m.parameters.zip args, x.1.role = .locale → x.2 = .string locale)
    {named : List (String × Json)}
    (hnamed : ∀ x ∈ m.parameters.zip args, x.1.role = .argument → Json.field? x.1.name named = some x.2) :
    t.invoke m.name args properties = t.renderByName m.keyName locale named properties := by
  have harity : args.length = f.parameters.length := hlength.trans hserves.parameters.symm
  -- The slot is the place of a locale parameter, and the locale is given to all of these.
  have hvalue : args[f.localeSlot]? = some (.string locale) := by
    obtain ⟨q, hq, hrole⟩ := hserves.locale
    have hslot : f.localeSlot < args.length := by
      rw [hlength]
      exact (List.getElem?_eq_some_iff.mp hq).1
    have hget : args[f.localeSlot]? = some args[f.localeSlot] := List.getElem?_eq_getElem hslot
    have hmem : (q, args[f.localeSlot]) ∈ m.parameters.zip args := by
      apply List.mem_of_getElem?
      exact List.getElem?_zip_eq_some.mpr ⟨hq, hget⟩
    have hstring : args[f.localeSlot] = .string locale := hlocale _ hmem hrole
    rw [hget, hstring]
  have hof : localeOf f args = .ok locale := by
    rw [localeOf, hvalue]
  rw [invoke_of_localeOf hf harity hof, hserves.key,
    ← render_eq_renderByName ha (givenBy_arguments hserves hlength hnamed)]

/-- The values of ignored parameters do not matter. -/
theorem invoke_eq_of_ignored (hf : t.methods.get? m.name = some f) {schema : ParameterList}
    (hserves : f.Serves m schema) {args args' : List Json} (hlength : args.length = args'.length)
    (hsame : ∀ (i : Nat) q, m.parameters[i]? = some q → q.role ≠ .ignored → args[i]? = args'[i]?) :
    t.invoke m.name args properties = t.invoke m.name args' properties := by
  -- Neither the slot nor the place of an argument is that of an ignored parameter.
  have hlocale : args[f.localeSlot]? = args'[f.localeSlot]? := by
    obtain ⟨q, hq, hrole⟩ := hserves.locale
    exact hsame _ q hq (by simp [hrole])
  have hof : localeOf f args = localeOf f args' := by
    rw [localeOf, localeOf, hlocale]
  have harguments : (f.arguments.filterMap fun i => args[i]?) = f.arguments.filterMap fun i => args'[i]? := by
    apply List.filterMap_congr
    intro i hi
    obtain ⟨p, -, q, hq, hrole, -⟩ := exists_of_forall₂_of_mem_right hserves.arguments hi
    exact hsame i q hq (by simp [hrole])
  simp only [invoke, hf, hlength, hof, harguments]

end Table

end Phrasebook
