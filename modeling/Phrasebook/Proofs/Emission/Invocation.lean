import Phrasebook.Proofs.Compile.Selection
import Phrasebook.Proofs.Emission.Display
import Phrasebook.Proofs.Emission.Forwarding
import Phrasebook.Proofs.Emission.FunctionNames

/-!
# Calls of the functions of methods

The function of a method takes the calls that the table takes, and makes the same text of them unless a number is shown
otherwise in the generated module.

## Layers

- `HostArgument.inFormat`: how the function of an accessor shows an argument, whatever code shows it.
- `Accessor.returned?`, `FunctionCode.pass?`: the text of the function of an accessor, and what a function passes on.
- `Method.callArguments?`: the arguments of a call in the generated module, read from those of the table.
- `Forwarding.Carries.pass?_eq`: what the function of a method passes on of them.
- `ContractRun.isSome_callArguments?_iff`: they can be read exactly when the table takes the call.
- `compile_forwards`: the methods of a compilation.
-/

namespace Phrasebook

open Phrasebook.Name

/-! ## §1 Texts of arguments -/

/-- The text of an argument in a format. -/
def HostArgument.inFormat : HostArgument → String
  | .plain x => x.inFormat
  | .optional none => "null"
  | .optional (some x) => x.inFormat

theorem Builtin.ne_value_of_read? {kind : Builtin} (hkind : kind ≠ .any) {v : Json} {x : HostValue}
    (h : kind.read? v = some x) : ∀ u, x ≠ .value u := by
  rintro u rfl
  cases kind with
  | any => exact hkind rfl
  | integer => cases v <;> simp [read?, HostValue.integer?] at h
  | float => cases v <;> simp [read?, HostValue.float?] at h
  | boolean => cases v <;> simp [read?, HostValue.boolean?] at h
  | text => cases v <;> simp [read?, HostValue.text?] at h

namespace ParamType

variable {t : ParamType} {v : Json}

/-- An argument is absent, or it is a value that is read. -/
theorem hostArgument?_cases {x : HostArgument} (h : t.hostArgument? (some v) = some x) :
    (v = .null ∧ t.nullable = true ∧ x = .optional none) ∨
      ∃ y, v ≠ .null ∧ t.builtinOf.read? v = some y ∧ x = if t.nullable then .optional (some y) else .plain y := by
  -- Null is taken by a nullable type only, and then nothing is read.
  by_cases hnull : v = .null
  · subst hnull
    obtain ⟨w, hw⟩ := (t.isSome_hostArgument?_iff (some .null)).mp (Option.isSome_of_eq_some h)
    cases hnullable : t.nullable with
    | false => simp [coerce, hnullable] at hw
    | true =>
      have habsent : t.hostArgument? (some .null) = some (.optional none) := by
        simp [hostArgument?, HostArgument.read?, hnullable]
      exact .inl ⟨rfl, rfl, Option.some.inj (h.symm.trans habsent)⟩
  · rw [t.hostArgument?_of_ne_null hnull, Option.map_eq_some_iff] at h
    obtain ⟨y, hy, rfl⟩ := h
    exact .inr ⟨y, hnull, hy, rfl⟩

/-- The code that shows an argument shows its text. -/
theorem shownCode?_hostArgument {ident : String} (hident : isWord ident.toList = true) {x : HostArgument}
    (h : t.hostArgument? (some v) = some x) :
    shownCode? ident x (lex (FormatArgument.shown ident t).toList) = some x.inFormat := by
  rcases hostArgument?_cases h with ⟨-, hnullable, rfl⟩ | ⟨y, hnull, hread, rfl⟩
  · exact shownCode?_absent hident hnullable
  · by_cases hany : t.builtinOf = .any
    · rw [hany] at hread
      obtain rfl : HostValue.value v = y := by
        cases v with
        | null => exact absurd rfl hnull
        | _ => exact Option.some.inj hread
      rw [shownCode?_value hident (by simp [isValue, hany]) v]
      cases t.nullable <;> rfl
    · have hvalue := Builtin.ne_value_of_read? hany hread
      rw [shownCode?_other hident (by simpa [isValue] using hany) hvalue]
      cases y with
      | value u => exact absurd rfl (hvalue u)
      | _ => cases t.nullable <;> rfl

/-- The text of an argument is that of its value, unless a number is read that is not shown plainly. -/
theorem inFormat_of_hostArgument? {x : HostArgument} (h : t.hostArgument? (some v) = some x)
    (hplain : t.builtinOf = .float → ∀ n, v = .number n → n.ShownPlain) : x.inFormat = v.display := by
  rcases hostArgument?_cases h with ⟨rfl, -, rfl⟩ | ⟨y, hnull, hread, rfl⟩
  · rfl
  · have hvalue : (if t.nullable then HostArgument.optional (some y) else .plain y).inFormat = y.inFormat := by
      cases t.nullable <;> rfl
    rw [hvalue]
    -- A value that is kept as it is shows the same; a float number only if it is plain; all others are no values.
    by_cases hany : t.builtinOf = .any
    · rw [hany] at hread
      cases v with
      | null => exact absurd rfl hnull
      | _ => obtain rfl := Option.some.inj hread; rfl
    · by_cases hfloat : t.builtinOf = .float
      · rw [hfloat] at hread
        cases v with
        | number n =>
          obtain rfl : HostValue.float n.asFloat = y := Option.some.inj hread
          exact n.display_asFloat_iff.mpr (hplain hfloat n rfl)
        | _ => cases hread
      · obtain ⟨hvalue, hdisplay⟩ := display_of_read? hread hfloat hany
        cases y with
        | value u => exact absurd rfl (hvalue u)
        | _ => exact hdisplay

end ParamType

/-! ## §2 Calls -/

/-- What a parameter of a function of the generated module is called with. -/
inductive CallArgument where
  | locale (variant : String)
  | properties
  /-- A value for a parameter of a key. -/
  | value (argument : HostArgument)
  /-- A value that nothing is asked of. -/
  | other

def CallArgument.value? : CallArgument → Option HostArgument
  | .value x => some x
  | _ => none

/-- What a name stands for in a function that is called with arguments in the order of its parameters. -/
def FunctionCode.valueOf? (f : FunctionCode) (args : List CallArgument) (name : String) : Option CallArgument :=
  Entries.find? name ((f.parameters.map (·.1)).zip args)

/-- What a function passes on, when it is called with arguments in the order of its parameters. -/
def FunctionCode.pass? (f : FunctionCode) (args : List CallArgument) : Option (List CallArgument) :=
  (CallCode.read? f.body).bind fun call =>
    if args.length = f.parameters.length then call.arguments.mapM (f.valueOf? args) else none

/-- The text that the function of an accessor returns, when it is called with arguments in the order of its
parameters. -/
def Accessor.returned? (a : Accessor) (properties : KeyMap ParamType) (texts : String → Option String) :
    List CallArgument → Option String
  | .locale variant :: .properties :: args =>
    (args.mapM CallArgument.value?).bind fun values =>
      if values.length = a.schema.length then
        ((a.schema.zip values).mapM fun p => shownCode? (ofParameter p.1.name) p.2
            (lex (FormatArgument.shown (ofParameter p.1.name) p.1.type).toList)).bind
          fun shown => FunctionCall.evaluate ⟨variant, shown, propertyFields properties texts⟩
            (AccessorFunction.ofAccessor properties a).item
      else none
  | _ => none

/-- The locale of the generated module that stands for a value, when it is a known one. -/
def CallArgument.ofLocale? (locales : List String) : Json → Option CallArgument
  | .string name => if name ∈ locales then some (.locale (ofLocale name)) else none
  | _ => none

/-- The argument of the generated module that stands for a value, when there is one. -/
def MethodParameter.callArgument? (locales : List String) (q : MethodParameter) (v : Json) : Option CallArgument :=
  match q.role with
  | .locale => CallArgument.ofLocale? locales v
  | .argument => match ParamType.parse q.type with
    | .ok t => (t.hostArgument? (some v)).map .value
    | .error _ => none
  | .ignored => some .other

/-- The arguments of the function of a method that stand for those of a call of the method. -/
def Method.callArguments? (locales : List String) (m : Method) (args : List Json) : Option (List CallArgument) :=
  if args.length = m.parameters.length then
    ((m.parameters.zip args).mapM fun x : MethodParameter × Json =>
      x.1.callArgument? locales x.2).map (.properties :: ·)
  else none

/-- Where a call has a value for an argument of the type of a parameter, this is what is read from it. -/
def Method.Gives (m : Method) (args : List Json) (p : Parameter) (v : Json) (x : HostArgument) : Prop :=
  (∃ q, (q, v) ∈ m.parameters.zip args ∧ q.role = .argument ∧ ParamType.parse q.type = .ok p.type) ∧
    p.type.hostArgument? (some v) = some x

namespace MethodParameter

variable {q : MethodParameter} {locales : List String} {v : Json}

theorem callArgument?_of_locale (h : q.role = .locale) {x : CallArgument} :
    q.callArgument? locales v = some x ↔ ∃ locale ∈ locales, v = .string locale ∧ x = .locale (ofLocale locale) := by
  rw [callArgument?, h]
  cases v with
  | string locale => by_cases hmem : locale ∈ locales <;> simp [CallArgument.ofLocale?, hmem, eq_comm]
  | _ => simp [CallArgument.ofLocale?]

theorem callArgument?_of_argument (h : q.role = .argument) {t : ParamType} (ht : ParamType.parse q.type = .ok t) :
    q.callArgument? locales v = (t.hostArgument? (some v)).map .value := by
  simp only [callArgument?, h, ht]

theorem callArgument?_of_ignored (h : q.role = .ignored) : q.callArgument? locales v = some .other := by
  rw [callArgument?, h]

end MethodParameter

/-! ## §3 Calls of the table -/

/-- A value that is accepted is one that the generated module can read, and stays as it is. -/
theorem ParamType.coerce_eq_ok_iff {t : ParamType} {v w : Json} :
    t.coerce (some v) = .ok w ↔ (t.hostArgument? (some v)).isSome = true ∧ w = v := by
  rw [isSome_hostArgument?_iff]
  -- A value that is accepted is handed on unchanged.
  have hsame : ∀ w, t.coerce (some v) = .ok w → w = v := by
    intro w hw
    by_cases hnull : v = .null
    · subst hnull
      cases hnullable : t.nullable <;> simp [coerce, hnullable] at hw
      exact hw.symm
    · rw [t.coerce_of_ne_null hnull] at hw
      split at hw
      · exact (Except.ok.inj hw).symm
      · cases hw
  refine ⟨fun h => ⟨⟨w, h⟩, hsame w h⟩, fun h => ?_⟩
  obtain ⟨⟨w', hw'⟩, rfl⟩ := h
  rwa [hsame w' hw'] at hw'

/-- Arguments are accepted as they are, when the generated module can read each of them. -/
theorem Accessor.checkArguments_eq_ok_iff {a : Accessor} {args accepted : List Json} :
    a.checkArguments args = .ok accepted ↔
      List.Forall₂ (fun p v => (p.type.hostArgument? (some v)).isSome = true) a.schema args ∧ accepted = args := by
  unfold checkArguments
  split
  · rename_i hlength
    simp only [reduceCtorEq, false_iff, not_and]
    exact fun h => absurd h.length_eq.symm hlength
  · rename_i hlength
    have hargs : (a.schema.zip args).map (·.2) = args := List.map_snd_zip (by omega)
    rw [traverse_eq_ok_iff_of_forall (p := fun p => (p.1.type.hostArgument? (some p.2)).isSome = true) (g := (·.2))
      fun p v => by rw [coerceArgument, mapError_eq_ok, ParamType.coerce_eq_ok_iff], hargs, List.forall₂_iff_zip]
    exact and_congr_left fun _ => ⟨fun h => ⟨by omega, fun hmem => h _ hmem⟩, fun h p hmem => h.2 hmem⟩

namespace Table

variable {t : Table} {a : Accessor} {properties : PropertySource} {text : String}

theorem render_eq_ok_iff {key locale : String} (ha : t.accessors.get? key = some a) {args : List Json} :
    t.render key locale args properties = .ok text ↔
      locale ∈ t.locales ∧
        List.Forall₂ (fun p v => (p.type.hostArgument? (some v)).isSome = true) a.schema args ∧
        text = a.renderAccepted locale args properties := by
  have hknown : t.checkLocale locale = .ok () ↔ locale ∈ t.locales := by
    simp [checkLocale]
  rw [render_of_get? ha]
  show (t.checkLocale locale >>= fun _ => _) = _ ↔ _
  simp only [bind_eq_ok, map_eq_ok, Accessor.checkArguments_eq_ok_iff]
  refine ⟨fun h => ?_, fun h => ?_⟩
  · obtain ⟨⟨⟩, hlocale, accepted, ⟨hall, rfl⟩, htext⟩ := h
    exact ⟨hknown.mp hlocale, hall, htext⟩
  · obtain ⟨hlocale, hall, htext⟩ := h
    exact ⟨(), hknown.mpr hlocale, args, ⟨hall, rfl⟩, htext⟩

/-- A call of a method is taken when it has an argument for each parameter, a known locale at the slot, and arguments of
the key that are accepted. -/
theorem invoke_eq_ok_iff {method : String} {f : Forwarding} (hf : t.methods.get? method = some f)
    (ha : t.accessors.get? f.key = some a) {args : List Json} :
    t.invoke method args properties = .ok text ↔
      args.length = f.parameters.length ∧ ∃ locale ∈ t.locales, args[f.localeSlot]? = some (.string locale) ∧
        List.Forall₂ (fun p v => (p.type.hostArgument? (some v)).isSome = true) a.schema
          (f.arguments.filterMap fun i => args[i]?) ∧
        text = a.renderAccepted locale (f.arguments.filterMap fun i => args[i]?) properties := by
  -- The locale is a string at its place; anything else there is an error.
  have hlocale : ∀ locale, localeOf f args = .ok locale ↔ args[f.localeSlot]? = some (.string locale) := by
    intro locale
    unfold localeOf
    split
    · rename_i l hl
      simp [hl]
    · rename_i hnot
      simp only [reduceCtorEq, false_iff]
      exact hnot locale
  simp only [invoke, hf]
  by_cases hlength : args.length = f.parameters.length
  · simp only [hlength, ne_eq, not_true_eq_false, ↓reduceIte, true_and, bind_eq_ok, hlocale, render_eq_ok_iff ha]
    refine exists_congr fun locale => ?_
    rw [and_left_comm]
  · simp [hlength]

end Table

/-! ## §4 Methods -/

/-- Where a relation holds item by item, each item of names without repetition stands for what is related to it. -/
theorem find?_zip_of_forall₂ {α β : Type} {R : α → β → Prop} {as : List α} {bs : List β} (h : List.Forall₂ R as bs)
    {g : α → String} (hnodup : (as.map g).Nodup) {a : α} (ha : a ∈ as) :
    ∃ b, R a b ∧ Entries.find? (g a) ((as.map g).zip bs) = some b := by
  obtain ⟨i, hi, rfl⟩ := List.mem_iff_getElem.mp ha
  have hi' : i < bs.length := h.length_eq ▸ hi
  have hname : (as.map g)[i]? = some (g as[i]) := by
    rw [List.getElem?_map, List.getElem?_eq_getElem hi]
    rfl
  exact ⟨bs[i], List.Forall₂.get h hi hi', find?_zip hnodup (by rw [List.length_map, h.length_eq]) hname
    (List.getElem?_eq_getElem hi')⟩

namespace Forwarding.Carries

variable {f : Forwarding} {m : Method} {a : Accessor} (h : f.Carries m a.schema) {args : List Json}
  (hlength : args.length = m.parameters.length)
include h hlength

theorem idents_zip : ((m.parameters.zip args).map fun x => ofParameter x.1.name)
      = m.parameters.map (fun q => ofParameter q.name) ∧
    ((m.parameters.zip args).map fun x => ofParameter x.1.name).Nodup := by
  have hfirst : (m.parameters.zip args).map (·.1) = m.parameters := List.map_fst_zip (by omega)
  have hidents : ((m.parameters.zip args).map fun x => ofParameter x.1.name)
      = m.parameters.map fun q => ofParameter q.name := by
    rw [← congrArg (List.map fun q => ofParameter q.name) hfirst, List.map_map]
    rfl
  exact ⟨hidents, hidents ▸ h.distinct⟩

/-- A parameter has one value, which is known by its name. -/
theorem value_unique {q q' : MethodParameter} {v v' : Json} (hv : (q, v) ∈ m.parameters.zip args)
    (hv' : (q', v') ∈ m.parameters.zip args) (hname : q'.name = q.name) : v' = v :=
  congrArg Prod.snd (List.inj_on_of_nodup_map (h.idents_zip hlength).2 hv' hv (congrArg ofParameter hname))

/-- The value at the slot is the one of the locale. -/
theorem exists_locale : ∃ l ∈ m.parameters, l.role = .locale ∧ ∃ v, args[f.localeSlot]? = some v ∧
    (l, v) ∈ m.parameters.zip args := by
  obtain ⟨l, hl, hrole⟩ := h.locale
  have hslot : f.localeSlot < args.length := by
    rw [hlength]
    exact (List.getElem?_eq_some_iff.mp hl).1
  have hvalue := List.getElem?_eq_getElem hslot
  exact ⟨l, List.mem_of_getElem? hl, hrole, _, hvalue, mem_zip_of_getElem? hl hvalue⟩

/-- The values of the arguments of the key, in the order of its parameters. -/
theorem values : List.Forall₂ (fun p v => ∃ q, (q, v) ∈ m.parameters.zip args ∧ q.role = .argument ∧ q.name = p.name ∧
    ParamType.parse q.type = .ok p.type) a.schema (f.arguments.filterMap fun i => args[i]?) := by
  have hall := (List.forall₂_and_left (p := (· ∈ a.schema)) _ _).mpr
    ⟨fun p hp => hp, Table.forall₂_arguments h.toServes hlength⟩
  refine hall.imp fun p v hv => ?_
  obtain ⟨hp, q, hmem, hrole, hname⟩ := hv
  exact ⟨q, hmem, hrole, hname, h.parse_of_name (List.of_mem_zip hmem).1 hrole hp hname⟩

/-- The arguments of a call can be read exactly when the table takes the locale at the slot and the arguments of the
key. -/
theorem forall_isSome_iff {locales : List String} :
    (∀ x ∈ m.parameters.zip args, (x.1.callArgument? locales x.2).isSome = true) ↔
      (∃ locale ∈ locales, args[f.localeSlot]? = some (.string locale)) ∧
        List.Forall₂ (fun p v => (p.type.hostArgument? (some v)).isSome = true) a.schema
          (f.arguments.filterMap fun i => args[i]?) := by
  obtain ⟨l, hl, hlrole, value, hvalue, hlocale⟩ := h.exists_locale hlength
  refine ⟨fun hall => ⟨?_, (h.values hlength).imp fun p v hv => ?_⟩, fun hall x hx => ?_⟩
  · obtain ⟨x, hx⟩ := Option.isSome_iff_exists.mp (hall _ hlocale)
    obtain ⟨locale, hmem, rfl, -⟩ := (MethodParameter.callArgument?_of_locale hlrole).mp hx
    exact ⟨locale, hmem, hvalue⟩
  · obtain ⟨q, hmem, hrole, -, hparse⟩ := hv
    have hread := hall _ hmem
    rwa [MethodParameter.callArgument?_of_argument hrole hparse, Option.isSome_map] at hread
  · obtain ⟨q, v⟩ := x
    obtain ⟨hq, -⟩ := List.of_mem_zip hx
    obtain ⟨⟨locale, hknown, hstring⟩, harguments⟩ := hall
    -- An argument is read as its role says: one stands for the locale, some for parameters, others for nothing.
    cases hrole : q.role with
    | locale =>
      obtain rfl : value = v := h.value_unique hlength hx hlocale (congrArg _ (h.eq_of_locale hl hlrole hq hrole))
      obtain rfl : value = .string locale := Option.some.inj (hvalue.symm.trans hstring)
      exact Option.isSome_of_eq_some ((MethodParameter.callArgument?_of_locale hrole).mpr ⟨locale, hknown, rfl, rfl⟩)
    | argument =>
      -- The argument is the value of one parameter of the schema, and this value was read.
      obtain ⟨p, hp, hname, hparse⟩ := h.exists_parameter hq hrole
      have hpairs : List.Forall₂ (fun p v => (p, v) ∈ a.schema.zip (f.arguments.filterMap fun i => args[i]?)) a.schema
          (f.arguments.filterMap fun i => args[i]?) :=
        List.forall₂_iff_zip.mpr ⟨harguments.length_eq, fun hmem => hmem⟩
      obtain ⟨v', -, hpair⟩ := exists_of_forall₂_of_mem hpairs hp
      obtain ⟨q', hmem, -, hname', -⟩ := List.forall₂_zip (h.values hlength) hpair
      obtain rfl : v' = v := h.value_unique hlength hx hmem (hname'.trans hname)
      rw [MethodParameter.callArgument?_of_argument hrole hparse, Option.isSome_map]
      exact List.forall₂_zip harguments hpair
    | ignored =>
      rw [MethodParameter.callArgument?_of_ignored hrole]
      rfl

section Values

variable {function : FunctionCode} {call : CallCode} (hpasses : m.PassesOn a.schema function call)
  {locales : List String} {read : List CallArgument}
  (hread : List.Forall₂ (fun x y => x.1.callArgument? locales x.2 = some y) (m.parameters.zip args) read)
include hpasses hread

/-- In its function, the name of a parameter of the method stands for what the parameter is called with. -/
theorem exists_valueOf? {q : MethodParameter} {v : Json} (hv : (q, v) ∈ m.parameters.zip args) :
    ∃ x, q.callArgument? locales v = some x ∧
      function.valueOf? (.properties :: read) (ofParameter q.name) = some x := by
  obtain ⟨hidents, hnodup⟩ := h.idents_zip hlength
  obtain ⟨x, hx, hfind⟩ := find?_zip_of_forall₂ hread hnodup hv
  rw [hidents] at hfind
  have hprops : ofParameter q.name ≠ "props" := fun heq =>
    ofParameter_not_mem_taken q.name (heq ▸ by decide)
  refine ⟨x, hx, ?_⟩
  rw [FunctionCode.valueOf?, hpasses.parameters, List.map_cons, List.map_map, List.zip_cons_cons, Entries.find?]
  simp only [hprops, ↓reduceIte]
  exact hfind

/-- The names of the parameters of the key stand for the arguments that are read from its values. -/
theorem exists_arguments : ∃ given : List (Json × HostArgument),
    given.map (·.1) = (f.arguments.filterMap fun i => args[i]?) ∧
    List.Forall₂ (fun p z => m.Gives args p z.1 z.2 ∧
      function.valueOf? (.properties :: read) (ofParameter p.name) = some (.value z.2)) a.schema given := by
  apply exists_forall₂_of_exists (P := fun p v x => m.Gives args p v x ∧
    function.valueOf? (.properties :: read) (ofParameter p.name) = some (.value x))
  refine (h.values hlength).imp fun p v hv => ?_
  obtain ⟨q, hq, hrole, hname, hparse⟩ := hv
  obtain ⟨y, hy, hfind⟩ := h.exists_valueOf? hlength hpasses hread hq
  rw [MethodParameter.callArgument?_of_argument hrole hparse, Option.map_eq_some_iff] at hy
  obtain ⟨x, hx, rfl⟩ := hy
  rw [hname] at hfind
  exact ⟨x, ⟨⟨q, hq, hrole, hparse⟩, hx⟩, hfind⟩

/-- The function of a method passes on the locale and the arguments of the key, in the order of its parameters. -/
theorem pass?_eq {callee : FunctionCode} (hforwards : function.Forwards callee call) :
    ∃ locale ∈ locales, args[f.localeSlot]? = some (.string locale) ∧ ∃ given : List (Json × HostArgument),
      given.map (·.1) = (f.arguments.filterMap fun i => args[i]?) ∧
      List.Forall₂ (fun p z => m.Gives args p z.1 z.2) a.schema given ∧
      function.pass? (.properties :: read)
        = some (.locale (ofLocale locale) :: .properties :: given.map fun z => .value z.2) := by
  obtain ⟨l, hl, hlrole, harguments⟩ := hpasses.arguments
  obtain ⟨l', hl', hlrole', value, hvalue, hmem⟩ := h.exists_locale hlength
  obtain rfl := h.eq_of_locale hl hlrole hl' hlrole'
  obtain ⟨x, hx, hlocale⟩ := h.exists_valueOf? hlength hpasses hread hmem
  obtain ⟨locale, hknown, rfl, rfl⟩ := (MethodParameter.callArgument?_of_locale hlrole).mp hx
  obtain ⟨given, hgiven, hall⟩ := h.exists_arguments hlength hpasses hread
  refine ⟨locale, hknown, hvalue, given, hgiven, hall.imp fun p z hz => hz.1, ?_⟩
  have harity : (CallArgument.properties :: read).length = function.parameters.length := by
    rw [hpasses.parameters, List.length_cons, List.length_cons, List.length_map, ← hread.length_eq, List.length_zip]
    omega
  have hprops : function.valueOf? (.properties :: read) "props" = some .properties := by
    rw [FunctionCode.valueOf?, hpasses.parameters, List.map_cons, List.zip_cons_cons, Entries.find?, if_pos rfl]
  -- The callee gets the locale, the properties, and then one argument for each parameter of the schema.
  rw [FunctionCode.pass?, hforwards.body, Option.bind_some, if_pos harity, mapM_eq_some_iff, harguments]
  refine .cons hlocale (.cons hprops ?_)
  rw [List.forall₂_map_left_iff, List.forall₂_map_right_iff]
  exact hall.imp fun p z hz => hz.2

end Values

end Forwarding.Carries

/-! ## §5 Texts -/

/-- The properties of a source that are declared. -/
def declaredSource (declared : KeyMap ParamType) (properties : PropertySource) : PropertySource := fun name =>
  if declared.contains name then properties name else none

namespace Accessor

variable {a : Accessor} {properties : KeyMap ParamType} (hident : a.ident = accessor a.key)
  (hidents : (a.schema.map fun p => ofParameter p.name).Nodup) (hfields : (properties.keys.map ofProperty).Nodup)
include hident hidents hfields

/-- The function of an accessor returns the text that the accessor makes of the texts of its arguments. -/
theorem returned?_eq {locale : String}
    (hvariants : ∀ b ∈ a.branches, ofLocale b.locale = ofLocale locale → b.locale = locale)
    (texts : String → Option String) {given : List (Json × HostArgument)}
    (hgiven : List.Forall₂ (fun p z => p.type.hostArgument? (some z.1) = some z.2) a.schema given) :
    a.returned? properties texts (.locale (ofLocale locale) :: .properties :: given.map fun z => .value z.2)
      = some (a.textShown locale (given.map fun z => z.2.inFormat) (declaredTexts properties texts)) := by
  have hvalues : (given.map fun z => CallArgument.value z.2).mapM CallArgument.value? = some (given.map (·.2)) := by
    rw [List.mapM_map]
    exact mapM_eq_some fun z _ => rfl
  have hlength : (given.map (·.2)).length = a.schema.length := by rw [List.length_map, hgiven.length_eq]
  have hread : List.Forall₂ (fun p x => ∃ v, p.type.hostArgument? (some v) = some x) a.schema (given.map (·.2)) := by
    rw [List.forall₂_map_right_iff]
    exact hgiven.imp fun p z hz => ⟨z.1, hz⟩
  -- Each argument is shown by the code for its type, in the order of the parameters.
  have hshown : ((a.schema.zip (given.map (·.2))).mapM fun p =>
      shownCode? (ofParameter p.1.name) p.2 (lex (FormatArgument.shown (ofParameter p.1.name) p.1.type).toList))
      = some (given.map fun z => z.2.inFormat) := by
    have htexts : (a.schema.zip (given.map (·.2))).map (fun p => p.2.inFormat) = given.map fun z => z.2.inFormat := by
      rw [← Function.comp_def HostArgument.inFormat, ← List.map_map, List.map_snd_zip (by omega), List.map_map]
      rfl
    rw [← htexts]
    refine mapM_eq_some fun p hp => ?_
    obtain ⟨v, hv⟩ := List.forall₂_zip hread hp
    exact ParamType.shownCode?_hostArgument (isWord_ofParameter _) hv
  rw [returned?, hvalues, Option.bind_some, if_pos hlength, hshown, Option.bind_some]
  exact AccessorFunction.evaluate_ofAccessor hidents hfields (by rw [List.length_map, hgiven.length_eq]) texts hident
    hvariants

end Accessor

/-- No argument of type `float` is a number that is shown otherwise in the generated module. -/
def Method.ShownPlain (m : Method) (args : List Json) : Prop :=
  ∀ x ∈ m.parameters.zip args, x.1.role = .argument → ∀ t, ParamType.parse x.1.type = .ok t → t.builtinOf = .float →
    ∀ n, x.2 = .number n → n.ShownPlain

theorem map_declaredSource (declared : KeyMap ParamType) (properties : PropertySource) :
    (fun name => (declaredSource declared properties name).map Json.display)
      = declaredTexts declared fun name => (properties name).map Json.display := by
  funext name
  unfold declaredSource declaredTexts
  split <;> rfl

/-! ## §6 Modules -/

/-- A module has the function of a method, and the function of an accessor of its key. -/
structure ContractModule.Has (c : ContractModule) (m : Method) (a : Accessor) (properties : KeyMap ParamType)
    (function callee : FunctionCode) : Prop where
  method : ∃ f ∈ c.methods.getD [], f.key = m.keyName ∧ FunctionCode.read? f.item = some function
  accessor : ∃ f ∈ c.accessors, f = .ofAccessor properties a ∧ FunctionCode.read? f.item = some callee
  ident : function.ident = ofMethod m.name
  /-- Unless two functions of the module have one name, only one has the name of the accessor. -/
  unique : c.functionNames.Nodup → c.functionNames.count callee.ident = 1

/-- The function of a method agrees with a table on a call: both fill the texts of the accessor in one locale, each with
the arguments as it shows them. -/
structure Method.Agrees (m : Method) (t : Table) (a : Accessor) (function : FunctionCode) (declared : KeyMap ParamType)
    (properties : PropertySource) (args : List Json) (read : List CallArgument) : Prop where
  texts : ∃ locale, ∃ given : List (Json × HostArgument),
    List.Forall₂ (fun p z => m.Gives args p z.1 z.2) a.schema given ∧
    (function.pass? read).bind (a.returned? declared fun name => (properties name).map Json.display)
      = some (a.textShown locale (given.map fun z => z.2.inFormat)
          (declaredTexts declared fun name => (properties name).map Json.display)) ∧
    t.invoke m.name args (declaredSource declared properties)
      = .ok (a.textShown locale (given.map fun z => z.1.display)
          (declaredTexts declared fun name => (properties name).map Json.display))
  /-- Where numbers are shown plainly, the texts are the same. -/
  same : m.ShownPlain args → ∃ text,
    (function.pass? read).bind (a.returned? declared fun name => (properties name).map Json.display) = some text ∧
      t.invoke m.name args (declaredSource declared properties) = .ok text

/-! ## §7 Compilations -/

namespace Compile

variable {s : Settings} {loader : SourceLoader}

/-- What the function of a method passes on, and the text that is made of it. -/
theorem ContractRun.exists_given (r : ContractRun s loader) (hvalid : s.validate = .ok ()) {m : Method} {f : Forwarding}
    {a : Accessor} (ha : r.table.accessors.get? m.keyName = some a) (h : f.Carries m a.schema)
    {function callee : FunctionCode} {call : CallCode} (hpasses : m.PassesOn a.schema function call)
    (hforwards : function.Forwards callee call) {args : List Json} {read : List CallArgument}
    (hread : m.callArguments? s.locales args = some read) :
    args.length = m.parameters.length ∧ ∃ locale ∈ s.locales, args[f.localeSlot]? = some (.string locale) ∧
      ∃ given : List (Json × HostArgument), given.map (·.1) = (f.arguments.filterMap fun i => args[i]?) ∧
        List.Forall₂ (fun p z => m.Gives args p z.1 z.2) a.schema given ∧
        ∀ texts, (function.pass? read).bind (a.returned? s.properties texts)
          = some (a.textShown locale (given.map fun z => z.2.inFormat) (declaredTexts s.properties texts)) := by
  obtain ⟨-, hlocales, hfields⟩ := Settings.validate_eq_ok_iff.mp hvalid
  unfold Method.callArguments? at hread
  split at hread
  · rename_i hlength
    obtain ⟨read, hitems, rfl⟩ := Option.map_eq_some_iff.mp hread
    obtain ⟨locale, hknown, hslot, given, hgiven, hall, hpass⟩ :=
      h.pass?_eq hlength hpasses (mapM_eq_some_iff.mp hitems) hforwards
    have hidents := Table.idents_nodup_of_get? r.generated ha
    rw [ParameterList.names, List.map_map] at hidents
    -- The variants of two locales differ, so the arm of the locale is that of its branch.
    have hvariants : ∀ b ∈ a.branches, ofLocale b.locale = ofLocale locale → b.locale = locale := by
      rw [Table.get?_accessors r.generated, Option.map_eq_some_iff] at ha
      obtain ⟨e, -, rfl⟩ := ha
      intro b hb hvariant
      exact List.inj_on_of_nodup_map hlocales (Table.mem_locales_of_mem_branchesOf hb) hknown hvariant
    refine ⟨hlength, locale, hknown, hslot, given, hgiven, hall, fun texts => ?_⟩
    rw [hpass, Option.bind_some]
    exact Accessor.returned?_eq (r.ident_of_get? ha) hidents hfields hvariants _ (hall.imp fun p z hz => hz.2)
  · cases hread

/-- The function of a method makes the text of the table, but for the way in which the arguments are shown. -/
theorem ContractRun.agrees (r : ContractRun s loader) (hvalid : s.validate = .ok ()) {m : Method} {f : Forwarding}
    {a : Accessor} (hf : r.table.methods.get? m.name = some f) (ha : r.table.accessors.get? m.keyName = some a)
    (h : f.Carries m a.schema) {function callee : FunctionCode} {call : CallCode}
    (hpasses : m.PassesOn a.schema function call) (hforwards : function.Forwards callee call) {args : List Json}
    {read : List CallArgument} (hread : m.callArguments? s.locales args = some read) (properties : PropertySource) :
    m.Agrees r.table a function s.properties properties args read := by
  obtain ⟨hlength, locale, hknown, hslot, given, hgiven, hall, htext⟩ :=
    r.exists_given hvalid ha h hpasses hforwards hread
  have hinvoke : r.table.invoke m.name args (declaredSource s.properties properties)
      = .ok (a.textShown locale (given.map fun z => z.1.display)
          (declaredTexts s.properties fun name => (properties name).map Json.display)) := by
    have hknown' : locale ∈ r.table.locales := by rwa [Table.locales_of_ofCatalog r.generated]
    refine (Table.invoke_eq_ok_iff hf (h.key.symm ▸ ha)).mpr ⟨?_, locale, hknown', hslot, ?_, ?_⟩
    · rw [h.names, List.length_map, hlength]
    · rw [← hgiven, List.forall₂_map_right_iff]
      exact hall.imp fun p z hz => Option.isSome_of_eq_some hz.2
    · rw [Accessor.renderAccepted_eq_textShown, map_declaredSource, ← hgiven, List.map_map]
      rfl
  refine ⟨⟨locale, given, hall, htext _, hinvoke⟩, fun hplain => ⟨_, htext _, ?_⟩⟩
  -- Only a number of type `float` can be shown in another way than its value.
  have hshown : (given.map fun z => z.2.inFormat) = given.map fun z => z.1.display := by
    refine List.map_congr_left fun z hz => ?_
    obtain ⟨p, -, ⟨q, hq, hrole, hparse⟩, hz⟩ := exists_of_forall₂_of_mem_right hall hz
    exact ParamType.inFormat_of_hostArgument? hz fun hfloat n hn => hplain _ hq hrole _ hparse hfloat n hn
  rw [hshown]
  exact hinvoke

/-- The arguments of a call can be read exactly when the table takes the call. -/
theorem ContractRun.isSome_callArguments?_iff (r : ContractRun s loader) {m : Method} {f : Forwarding} {a : Accessor}
    (hf : r.table.methods.get? m.name = some f) (ha : r.table.accessors.get? m.keyName = some a)
    (h : f.Carries m a.schema) (args : List Json) (properties : PropertySource) :
    (m.callArguments? s.locales args).isSome = true ↔ ∃ text, r.table.invoke m.name args properties = .ok text := by
  simp only [Table.invoke_eq_ok_iff hf (h.key.symm ▸ ha), h.names, List.length_map, exists_and_left]
  rw [Method.callArguments?]
  split
  · rename_i hlength
    rw [Option.isSome_map, isSome_mapM_iff, h.forall_isSome_iff hlength, Table.locales_of_ofCatalog r.generated]
    simp only [hlength, true_and]
    refine ⟨fun hcall => ?_, fun hcall => ?_⟩
    · obtain ⟨⟨locale, hknown, hslot⟩, hall⟩ := hcall
      exact ⟨_, locale, hknown, hslot, hall, rfl⟩
    · obtain ⟨text, locale, hknown, hslot, hall, -⟩ := hcall
      exact ⟨⟨locale, hknown, hslot⟩, hall⟩
  · rename_i hlength
    simp [hlength]

/-- The module of a contract has the functions of a method and of the accessor of its key. -/
theorem ContractRun.has (r : ContractRun s loader) {m : Method} {f : Forwarding} {a : Accessor}
    (hf : r.table.methods.get? m.name = some f) (ha : r.table.accessors.get? m.keyName = some a)
    (h : f.Carries m a.schema) {function callee : FunctionCode}
    (hfunction : FunctionCode.read? (MethodFunction.ofForwarding f a).item = some function)
    (hcallee : FunctionCode.read? (AccessorFunction.ofAccessor s.properties a).item = some callee)
    (hident : function.ident = ofMethod m.name) :
    (ContractModule.ofTable s.properties r.table).Has m a s.properties function callee := by
  have haccessor : a ∈ r.table.accessors.values := List.mem_map_of_mem (KeyMap.mem_entries_iff.mpr ha)
  have hforwarding : f ∈ r.table.methods.values := List.mem_map_of_mem (KeyMap.mem_entries_iff.mpr hf)
  have hmethods : (ContractModule.ofTable s.properties r.table).methods.getD []
      = r.table.methods.values.filterMap fun f =>
        (r.table.accessors.get? f.key).map (MethodFunction.ofForwarding f) := by
    have hsome : r.table.methods.isEmpty = false := by
      rw [KeyMap.isEmpty, List.isEmpty_eq_false_iff]
      exact List.ne_nil_of_mem (KeyMap.mem_entries_iff.mpr hf)
    simp [ContractModule.ofTable, hsome]
  refine ⟨⟨MethodFunction.ofForwarding f a, ?_, h.key, hfunction⟩, ⟨_, ?_, rfl, hcallee⟩, hident, fun hnodup => ?_⟩
  · rw [hmethods, List.mem_filterMap]
    exact ⟨f, hforwarding, by rw [h.key, ha, Option.map_some]⟩
  · exact List.mem_map_of_mem haccessor
  · have hnames : ∀ b ∈ r.table.accessors.values, isIdentifier b.ident.toList = true := by
      intro b hb
      obtain ⟨e, he, rfl⟩ := List.mem_map.mp hb
      rw [r.ident_of_get? (KeyMap.mem_entries_iff.mp he)]
      exact isIdentifier_accessor e.2.key
    obtain ⟨body, hread⟩ := AccessorFunction.read?_ofAccessor (r.ident_of_get? ha) s.properties
    obtain rfl := Option.some.inj (hread.symm.trans hcallee)
    -- The callee is one of the functions of the module, and no other has its name.
    refine List.count_eq_one_of_mem hnodup ?_
    rw [ContractModule.functionNames_ofTable _ hnames, List.map_map]
    exact List.mem_append_left _ (List.mem_map_of_mem (f := fun b : Accessor => b.function) haccessor)

/-- **Functions of methods**: each method of a contract has a function in the generated module, which calls the function
of the accessor of its key with arguments of the types that are asked for there. It takes the calls that the table
takes, and makes the same texts of them where numbers are shown plainly. -/
theorem compile_forwards {cs : List Contract} {o : CompileOutput} (h : compile s cs loader = .ok o) :
    List.Forall₂ (fun c t => ∀ m ∈ c.methods, ∃ a function callee call,
      t.accessors.get? m.keyName = some a ∧
      (ContractModule.ofTable s.properties t).Has m a s.properties function callee ∧
      function.Forwards callee call ∧ m.PassesOn a.schema function call ∧ ∀ args properties,
        ((m.callArguments? s.locales args).isSome = true ↔
          ∃ text, t.invoke m.name args (declaredSource s.properties properties) = .ok text) ∧
        ∀ read, m.callArguments? s.locales args = some read →
          m.Agrees t a function s.properties properties args read)
      cs o.tables := by
  have hvalid := validate_of_compile h
  obtain ⟨runs, rfl, htables⟩ := exists_runs h
  rw [htables, List.forall₂_map_left_iff, List.forall₂_map_right_iff, List.forall₂_same]
  intro r _ m hm
  obtain ⟨f, a, hf, ha, hcarries⟩ := r.exists_carries hm
  have hident := r.ident_of_get? ha
  obtain ⟨function, call, callee, hfunction, hcallee, hname, hforwards, hpasses⟩ :=
    hcarries.forwards hident s.properties
  refine ⟨a, function, callee, call, ha, r.has hf ha hcarries hfunction hcallee hname, hforwards, hpasses,
    fun args properties => ⟨r.isSome_callArguments?_iff hf ha hcarries args _, fun read hread => ?_⟩⟩
  exact r.agrees hvalid hf ha hcarries hpasses hforwards hread properties

/-- A call of a method, in a locale whose texts are those of the default one. -/
theorem compile_forwards_greeting :
    ∃ o, compile Greetings.settings [Greetings.contract] Greetings.sources = .ok o ∧ ∃ t, o.tables = [t] ∧
      ∀ m ∈ Greetings.contract.methods, ∃ a function read, t.accessors.get? m.keyName = some a ∧
        (∃ f ∈ (ContractModule.ofTable Greetings.settings.properties t).methods.getD [],
          FunctionCode.read? f.item = some function) ∧
        m.callArguments? Greetings.settings.locales [.string "fr-FR", .string "Ada", .null] = some read ∧
        (function.pass? read).bind (a.returned? Greetings.settings.properties fun _ => none) = some "Hallo Ada" := by
  obtain ⟨o, ho, hinvoke⟩ : ∃ o, compile Greetings.settings [Greetings.contract] Greetings.sources = .ok o ∧
      ∀ t ∈ o.tables, ∀ m ∈ Greetings.contract.methods, t.invoke m.name [.string "fr-FR", .string "Ada", .null]
        (declaredSource Greetings.settings.properties fun _ => none) = .ok "Hallo Ada" :=
    ⟨_, rfl, by decide⟩
  obtain ⟨t, htables, hmethods⟩ := exists_of_forall₂_singleton (compile_forwards ho)
  refine ⟨o, ho, t, htables, fun m hm => ?_⟩
  obtain ⟨a, function, callee, call, ha, hhas, -, -, hagrees⟩ := hmethods m hm
  obtain ⟨f, hf, -, hread⟩ := hhas.method
  have hcall := hinvoke t (htables ▸ List.mem_singleton_self t) m hm
  obtain ⟨htaken, htexts⟩ := hagrees [.string "fr-FR", .string "Ada", .null] fun _ => none
  obtain ⟨read, hargs⟩ := Option.isSome_iff_exists.mp (htaken.mpr ⟨_, hcall⟩)
  -- There is no number among the arguments.
  have hplain : m.ShownPlain [.string "fr-FR", .string "Ada", .null] := by
    obtain rfl := List.mem_singleton.mp hm
    intro x hx _ _ _ _ n hn
    simp only [List.zip_cons_cons, List.zip_nil_right, List.mem_cons, List.not_mem_nil, or_false] at hx
    rcases hx with rfl | rfl | rfl <;> cases hn
  obtain ⟨text, htext, hsame⟩ := (htexts read hargs).same hplain
  obtain rfl := Except.ok.inj (hcall.symm.trans hsame)
  exact ⟨a, function, read, ha, ⟨f, hf, hread⟩, hargs, htext⟩

/-- A contract with a method that takes a number. -/
def Greetings.price : Contract :=
  ⟨"app.Prices", none, [⟨"price", none, [⟨"locale", "Locale", .locale⟩, ⟨"amount", "float", .argument⟩]⟩]⟩

/-- Only the default locale has a source. -/
def Greetings.prices : SourceLoader := fun locale _ =>
  if locale = "de-DE" then .found "de_de/prices.yaml" (.branch [("price", .leaf ⟨"Costs {amount}", none⟩)])
  else .missing "prices.yaml"

/-- The number that is written `3.0`. -/
def Greetings.three : Json := .number (.float ⟨false, 3 * 2 ^ 51, -51⟩)

/-- A whole number that was written with a point loses it in the generated module. -/
theorem compile_forwards_fraction :
    ∃ o, compile Greetings.settings [Greetings.price] Greetings.prices = .ok o ∧ ∃ t, o.tables = [t] ∧
      ∀ m ∈ Greetings.price.methods, ∃ a function read, t.accessors.get? m.keyName = some a ∧
        (∃ f ∈ (ContractModule.ofTable Greetings.settings.properties t).methods.getD [],
          FunctionCode.read? f.item = some function) ∧
        m.callArguments? Greetings.settings.locales [.string "en-US", Greetings.three] = some read ∧
        t.invoke m.name [.string "en-US", Greetings.three] (fun _ => none) = .ok "Costs 3.0" ∧
        (function.pass? read).bind (a.returned? Greetings.settings.properties fun _ => none) = some "Costs 3" := by
  obtain ⟨o, ho, hfound⟩ : ∃ o, compile Greetings.settings [Greetings.price] Greetings.prices = .ok o ∧
      ∀ t ∈ o.tables, t.invoke "price" [.string "en-US", Greetings.three] (fun _ => none) = .ok "Costs 3.0" ∧
        t.accessors.get? "price" = some ⟨"price", "price", [⟨"amount", .builtin .float false⟩], [],
          some ⟨"de-DE", ⟨"Costs {amount}"⟩⟩⟩ :=
    ⟨_, rfl, by decide +kernel⟩
  obtain ⟨runs, hruns, htables⟩ := exists_runs ho
  obtain ⟨r, rfl, hr⟩ := List.map_eq_singleton_iff.mp hruns
  obtain ⟨hinvoke, hprice⟩ := hfound r.table (htables ▸ List.mem_singleton_self _)
  refine ⟨o, ho, r.table, htables, fun m hm => ?_⟩
  obtain ⟨f, a, hf, ha, hcarries⟩ := r.exists_carries (hr.symm ▸ hm)
  obtain ⟨read, hargs⟩ : ∃ read,
      m.callArguments? Greetings.settings.locales [.string "en-US", Greetings.three] = some read := by
    obtain rfl := List.mem_singleton.mp hm
    exact ⟨_, rfl⟩
  obtain rfl := List.mem_singleton.mp hm
  obtain rfl := Option.some.inj (hprice.symm.trans ha)
  obtain ⟨function, call, callee, hfunction, hcallee, hname, hforwards, hpasses⟩ :=
    hcarries.forwards rfl Greetings.settings.properties
  obtain ⟨method, hmethod, -, hread⟩ := (r.has hf ha hcarries hfunction hcallee hname).method
  obtain ⟨-, locale, -, -, given, -, hall, htext⟩ :=
    r.exists_given (validate_of_compile ho) ha hcarries hpasses hforwards hargs
  obtain ⟨z, rfl, ⟨q, hq, hrole, -⟩, hz⟩ := exists_of_forall₂_singleton hall
  refine ⟨_, function, read, ha, ⟨method, hmethod, hread⟩, hargs, hinvoke, (htext _).trans (congrArg some ?_)⟩
  -- The other value of the call is the locale, which is no argument.
  have hvalue : z.1 = Greetings.three := by
    simp only [List.zip_cons_cons, List.zip_nil_right, List.mem_cons, List.not_mem_nil, or_false, Prod.mk.injEq] at hq
    rcases hq with ⟨rfl, -⟩ | ⟨-, hvalue⟩
    · cases hrole
    · exact hvalue
  rw [hvalue] at hz
  obtain hshown : HostArgument.plain (.float ⟨false, 3 * 2 ^ 51, -51⟩) = z.2 := Option.some.inj hz
  have hthree : (HostArgument.plain (.float ⟨false, 3 * 2 ^ 51, -51⟩)).inFormat = "3" := by decide +kernel
  rw [List.map_singleton, ← hshown, hthree]
  rfl

end Compile

end Phrasebook
