import Phrasebook.Proofs.Compile.Failure
import Phrasebook.Proofs.Compile.Forwarding
import Mathlib.Data.List.Range

/-!
# Places in a call of a method

A method of a table finds the locale and the parameters of its key by their places among the arguments of a call. In a
compiled table all these places are there, so that no call looks for an argument outside its list, and a call with as
many arguments as the method has parameters passes on as many as the key has.

## Layers

1. **Places**: the places of the argument parameters of a method, in increasing order; a method of a table has these.
2. **Calls**: `Table.invokeWithin?` is a call that comes to nothing where it looks outside a list; it comes to what
   `Table.invoke` does when all places are there.
3. **Errors**: no declaration of a contract lacks its key or a place for a parameter of the key.
4. **Compilations**: what this means for a whole compilation.
-/

namespace Phrasebook

/-! ## §1 Places -/

/-- The places of the parameters that are put into the phrase. -/
def argumentPlaces (ms : List MethodParameter) : List Nat :=
  (ms.zipIdx.filter fun p => p.1.role = .argument).map (·.2)

theorem argumentPlaces_pairwise (ms : List MethodParameter) : (argumentPlaces ms).Pairwise (· < ·) := by
  have hall : (ms.zipIdx.map (·.2)).Pairwise (· < ·) := by
    rw [List.zipIdx_map_snd]
    exact List.pairwise_lt_range' 1
  exact hall.sublist (List.filter_sublist.map _)

/-- The places of a method in a call: that of the locale, and one for each parameter of its key. -/
structure Forwarding.Placed (f : Forwarding) (schema : ParameterList) : Prop where
  slot : f.localeSlot < f.parameters.length
  within : ∀ i ∈ f.arguments, i < f.parameters.length
  /-- The arguments stand in the order of the method. -/
  increasing : f.arguments.Pairwise (· < ·)
  /-- The locale is not passed on as an argument. -/
  apart : f.localeSlot ∉ f.arguments
  /-- At the place of a parameter of the key stands the parameter of the method with its name. -/
  each : List.Forall₂ (fun p i => f.parameters[i]? = some p.name) schema f.arguments

namespace Forwarding.Carries

variable {f : Forwarding} {m : Method} {schema : ParameterList} (h : f.Carries m schema)
include h

/-- The arguments are the places of the argument parameters, in their order. -/
theorem arguments_eq : f.arguments = argumentPlaces m.parameters := by
  have hfirst : (m.parameters.zipIdx.filter fun x => x.1.role = .argument).map (·.1)
      = m.parameters.filter fun q => q.role = .argument := by
    conv_rhs => rw [← List.zipIdx_map_fst 0 m.parameters, List.filter_map]
    rfl
  have hreads := h.reads
  rw [← hfirst, List.forall₂_map_left_iff] at hreads
  -- From an argument parameter with its place, by way of the parameter of the key, to the place in the method.
  have hboth := (List.forall₂_and_left (p := (· ∈ m.parameters.zipIdx.filter fun x => x.1.role = .argument)) _ _).mpr
    ⟨fun x hx => hx, forall₂_comp hreads h.arguments⟩
  have hmap := map_eq_map_of_forall₂ (f := Prod.snd) (g := id) hboth fun x i hx => by
    obtain ⟨hmem, p, ⟨hname, -⟩, q, hq, -, hname'⟩ := hx
    have hplace := List.mem_zipIdx_iff_getElem?.mp (List.mem_filter.mp hmem).1
    exact h.place_unique hq hplace (hname'.trans hname)
  rwa [List.map_id] at hmap

/-- What stands at a place of the method stands at this place of the call. -/
theorem getElem?_parameters {i : Nat} {q : MethodParameter} (hq : m.parameters[i]? = some q) :
    f.parameters[i]? = some q.name := by
  rw [h.names, List.getElem?_map, hq]
  rfl

theorem lt_of_getElem? {i : Nat} {q : MethodParameter} (hq : m.parameters[i]? = some q) : i < f.parameters.length :=
  (List.getElem?_eq_some_iff.mp (h.getElem?_parameters hq)).1

theorem placed : f.Placed schema where
  slot := by
    obtain ⟨q, hq, -⟩ := h.locale
    exact h.lt_of_getElem? hq
  within := by
    intro i hi
    obtain ⟨p, -, q, hq, -⟩ := exists_of_forall₂_of_mem_right h.arguments hi
    exact h.lt_of_getElem? hq
  increasing := h.arguments_eq ▸ argumentPlaces_pairwise m.parameters
  apart := by
    -- A parameter has one role, and that of the slot is to be the locale.
    obtain ⟨q, hq, hrole⟩ := h.locale
    rw [h.arguments_iff hq, hrole]
    decide
  each := by
    refine h.arguments.imp fun p i hplace => ?_
    obtain ⟨q, hq, -, hname⟩ := hplace
    rw [h.getElem?_parameters hq, hname]

end Forwarding.Carries

/-! ## §2 Calls -/

/-- A call of a method that comes to nothing where it looks for something outside a list. -/
def Table.invokeWithin? (t : Table) (method : String) (args : List Json) (properties : PropertySource) :
    Option (Except LookupError String) :=
  match t.methods.get? method with
  | none => some (.error (.methodNotFound t.contract method))
  | some f =>
    if args.length ≠ f.parameters.length then some (.error (.arity f.key f.parameters.length args.length))
    else match args[f.localeSlot]? with
      | none => none
      | some (.string locale) =>
        (f.arguments.mapM fun i => args[i]?).map fun passed => t.render f.key locale passed properties
      | some v =>
        (f.parameters[f.localeSlot]?).map fun name => .error (.argumentType f.key name .locale (.ofJson v))

namespace Table

variable {t : Table} {method : String} {f : Forwarding} {schema : ParameterList} {properties : PropertySource}

/-- All arguments that a method passes on are there. -/
theorem mapM_arguments (hplaced : f.Placed schema) {args : List Json} (hlength : args.length = f.parameters.length) :
    (f.arguments.mapM fun i => args[i]?) = some (f.arguments.filterMap fun i => args[i]?) := by
  apply mapM_eq_some_filterMap
  intro i hi
  have hlt : i < args.length := hlength ▸ hplaced.within i hi
  rw [List.getElem?_eq_getElem hlt]
  rfl

theorem length_passed (hplaced : f.Placed schema) {args : List Json} (hlength : args.length = f.parameters.length) :
    (f.arguments.filterMap fun i => args[i]?).length = schema.length := by
  have hpassed := mapM_eq_some_iff.mp (mapM_arguments hplaced hlength)
  rw [← hpassed.length_eq, hplaced.each.length_eq]

/-- A method whose places are there looks nowhere else. -/
theorem invokeWithin?_eq (hf : ∀ f, t.methods.get? method = some f → ∃ schema, f.Placed schema) (args : List Json) :
    t.invokeWithin? method args properties = some (t.invoke method args properties) := by
  unfold invokeWithin? invoke
  cases hget : t.methods.get? method with
  | none => rfl
  | some f =>
    obtain ⟨schema, hplaced⟩ := hf f hget
    by_cases hlength : args.length = f.parameters.length
    · have hslot : f.localeSlot < args.length := hlength ▸ hplaced.slot
      simp only [hlength, ne_eq, not_true_eq_false, ↓reduceIte]
      rw [mapM_arguments hplaced hlength, localeOf, List.getElem?_eq_getElem hslot,
        List.getElem?_eq_getElem hplaced.slot]
      -- Only a text is a locale.
      cases args[f.localeSlot] <;> rfl
    · simp only [hlength, ne_eq, not_false_eq_true, ↓reduceIte]

/-- Accessors refuse arguments for their number only when it is not that of the parameters. -/
theorem checkArguments_ne_arity {a : Accessor} {args : List Json} (hlength : args.length = a.schema.length)
    {key : String} {expected found : Nat} : a.checkArguments args ≠ .error (.arity key expected found) := by
  intro h
  rw [Accessor.checkArguments, if_neg (not_not.mpr hlength)] at h
  obtain ⟨x, -, hx⟩ := exists_of_traverse_eq_error h
  obtain ⟨_, -, hfound⟩ := mapError_eq_error.mp hx
  cases hfound

theorem render_ne_arity {key locale : String} {a : Accessor} (ha : t.accessors.get? key = some a) {args : List Json}
    (hlength : args.length = a.schema.length) {key' : String} {expected found : Nat} :
    t.render key locale args properties ≠ .error (.arity key' expected found) := by
  intro h
  rw [render_of_get? ha] at h
  rcases bind_eq_error.mp h with hlocale | ⟨_, -, hargs⟩
  · unfold checkLocale at hlocale
    split at hlocale <;> cases hlocale
  · exact checkArguments_ne_arity hlength (map_eq_error.mp hargs)

/-- A call with as many arguments as the method has parameters is not refused for the number of arguments. -/
theorem invoke_ne_arity (hf : t.methods.get? method = some f) {a : Accessor} (ha : t.accessors.get? f.key = some a)
    (hplaced : f.Placed a.schema) {args : List Json} (hlength : args.length = f.parameters.length) {key : String}
    {expected found : Nat} : t.invoke method args properties ≠ .error (.arity key expected found) := by
  intro h
  cases hlocale : localeOf f args with
  | ok locale =>
    rw [invoke_of_localeOf hf hlength hlocale] at h
    exact render_ne_arity ha (length_passed hplaced hlength) h
  | error e =>
    have hinvoke : t.invoke method args properties = .error e := by
      simp only [invoke, hf, hlength, ne_eq, not_true_eq_false, ↓reduceIte, hlocale]
      rfl
    -- The locale is refused for its type.
    obtain rfl := Except.error.inj (hinvoke.symm.trans h)
    unfold localeOf at hlocale
    split at hlocale <;> cases hlocale

end Table

/-! ## §3 Errors -/

/-- The errors of a declaration whose key, or a parameter of whose key, is not to be found. -/
inductive CompileError.Unfounded : CompileError → Prop
  | key (contract method key : String) : Unfounded (.invalidDeclaration contract method (.unknownKey key))
  | parameter (contract method name : String) : Unfounded (.invalidDeclaration contract method (.unknownParameter name))

/-- Each declaration has the entry of its key in the catalog, and a place for each parameter there. -/
theorem Table.forwardingOf_ne_error {c : Contract} {ds : List Declaration} {locales : List LocaleEntries}
    {resolution : SchemaResolution} (declared : c.declarations = .ok ds)
    (resolved : SchemaResolution.resolve c.name ds locales = .ok resolution) (ctx : AssemblyContext) {d : Declaration}
    (hd : d ∈ ds) (error : CompileError) :
    forwardingOf (Assembly.assemble ctx resolution.schemas locales).catalog d ≠ .error error := by
  intro h
  have hentry : (Assembly.assemble ctx resolution.schemas locales).catalog.entries.get? d.key
      = some (Assembly.entry locales d.key ⟨d.parameters, true⟩) := by
    simp only [Assembly.assemble, KeyMap.get?_mapValues, SchemaResolution.get?_of_declares resolved hd, Option.map_some]
  rcases exists_fault_of_forwardingOf h with ⟨hnone, -⟩ | ⟨e, p, he, hp, hnowhere, -⟩
  · rw [hentry] at hnone
    cases hnone
  · -- The entry has the parameters of the declaration, and each of these is read from a parameter of the method.
    obtain rfl := Option.some.inj (hentry.symm.trans he)
    obtain ⟨m, -, hm⟩ := exists_of_forall₂_of_mem_right (declarations_eq_ok_iff.mp declared) hd
    obtain ⟨slot, ps, -, hps, rfl⟩ := Declaration.ofMethod_eq_ok_iff.mp hm
    obtain ⟨q, hq, -, hname⟩ := Declaration.exists_argument_of_readParameters hps hp
    exact hnowhere (List.mem_map.mpr ⟨q, hq, hname⟩)

/-- Where every method can be made, a table fails for names only. -/
theorem Table.Fails.not_unfounded {c : Catalog} {ds : List Declaration} {e : CompileError} (h : Fails c ds e)
    (hmade : ∀ d ∈ ds, ∀ error, forwardingOf c d ≠ .error error) : ¬ e.Unfounded := by
  have hnames : ∀ {scope derive names}, ensureDistinct scope derive names = .error e → ¬ e.Unfounded := by
    intro scope derive names hfails hunfounded
    obtain ⟨k, rfl, -⟩ := exists_collision_of_ensureDistinct hfails
    cases hunfounded
  cases h with
  | accessors k => exact fun hunfounded => by cases hunfounded
  | keyParameters _ hfails => exact hnames hfails
  | repeated _ => exact fun hunfounded => by cases hunfounded
  | methodParameters _ hfails => exact hnames hfails
  | forwarding mem hfails => exact absurd hfails (hmade _ mem _)
  | methods hfails => exact hnames hfails

namespace Compile

variable {s : Settings} {loader : SourceLoader}

theorem ContractFails.not_unfounded {c : Contract} {e : CompileError} (h : ContractFails s loader c e) :
    ¬ e.Unfounded := by
  cases h with
  | repeated => exact fun hunfounded => by cases hunfounded
  | declarations hfails =>
    -- A method has only faults of its own here.
    obtain ⟨m, -, fault, hown, rfl⟩ := Contract.exists_fault_of_declarations hfails
    intro hunfounded
    cases hunfounded <;> cases hown
  | sources hfails =>
    obtain ⟨locale, -, path, cause, -, rfl⟩ := exists_source_of_loadFile hfails
    exact fun hunfounded => by cases hunfounded
  | schemas _ _ hfails =>
    intro hunfounded
    cases SchemaResolution.fails_of_resolve hfails <;> cases hunfounded
  | table declared _ resolved hfails =>
    apply (Table.fails_of_ofCatalog hfails).not_unfounded
    exact fun d hd error => Table.forwardingOf_ne_error declared resolved _ hd error

theorem not_unfounded_of_compile {cs : List Contract} {e : CompileError} (h : compile s cs loader = .error e) :
    ¬ e.Unfounded := by
  -- The settings and the modules are refused with errors of their own; what is left is a contract.
  rcases exists_cause h with hvalidate | hmodules | ⟨c, -, hfails⟩
  · intro hunfounded
    unfold Settings.validate at hvalidate
    split at hvalidate
    · obtain rfl := Except.error.inj hvalidate
      cases hunfounded
    · split at hvalidate
      · obtain rfl := Except.error.inj hvalidate
        cases hunfounded
      · rcases bind_eq_error.mp hvalidate with hnames | ⟨_, -, hnames⟩
        · obtain ⟨k, rfl, -⟩ := exists_collision_of_ensureDistinct hnames
          cases hunfounded
        · obtain ⟨k, rfl, -⟩ := exists_collision_of_ensureDistinct hnames
          cases hunfounded
  · intro hunfounded
    unfold checkModules at hmodules
    split at hmodules
    · cases hmodules
    · split at hmodules
      · cases hmodules
      · obtain rfl := Except.error.inj hmodules
        cases hunfounded
  · exact hfails.not_unfounded

/-! ## §4 Compilations -/

/-- A method that is found in the table carries the parameters of a method of the contract. -/
theorem ContractRun.exists_carries_of_get? (r : ContractRun s loader) {name : String} {f : Forwarding}
    (hf : r.table.methods.get? name = some f) :
    ∃ m ∈ r.contract.methods, ∃ a, r.table.accessors.get? f.key = some a ∧ f.Carries m a.schema := by
  obtain ⟨d, hd, rfl, -⟩ := (Table.get?_methods_eq_some_iff r.generated).mp hf
  obtain ⟨m, hm, hmd⟩ := exists_of_forall₂_of_mem_right (declarations_eq_ok_iff.mp r.declared) hd
  obtain ⟨f', a, hf', ha, hcarries⟩ := r.exists_carries hm
  rw [(Declaration.of_ofMethod hmd).1] at hf
  obtain rfl : f' = f := Option.some.inj (hf'.symm.trans hf)
  exact ⟨m, hm, a, hcarries.key ▸ ha, hcarries⟩

/-- **Places**: no declaration of a compilation lacks its key or a place for a parameter of the key. In a compiled table
the places of a method are among its parameters, those of the arguments in increasing order, one for each parameter of
the key and none at the place of the locale. So no call looks outside its arguments, and only a call with another number
of arguments than the method has parameters is refused for the number. -/
theorem compile_places (s : Settings) (cs : List Contract) (loader : SourceLoader) :
    (∀ c ∈ cs, ∀ ds sources resolution, c.declarations = .ok ds →
      loadFile loader (c.fileName s.package) s.locales = .ok sources →
      SchemaResolution.resolve c.name ds sources.entries = .ok resolution →
      ∀ e, Table.ofCatalog (Assembly.assemble ⟨c.name, c.fileName s.package, s.defaultLocale, s.properties⟩
          resolution.schemas sources.entries).catalog ds s.locales s.defaultLocale = .error e → ¬ e.Unfounded) ∧
    (∀ e, compile s cs loader = .error e → ¬ e.Unfounded) ∧
    ∀ o, compile s cs loader = .ok o → ∀ t ∈ o.tables, ∀ method args properties,
      t.invokeWithin? method args properties = some (t.invoke method args properties) ∧
      ∀ f, t.methods.get? method = some f →
        f.localeSlot < f.parameters.length ∧ (∀ i ∈ f.arguments, i < f.parameters.length) ∧
        f.arguments.Pairwise (· < ·) ∧ f.localeSlot ∉ f.arguments ∧
        (∃ a, t.accessors.get? f.key = some a ∧ f.arguments.length = a.schema.length ∧
          List.Forall₂ (fun p i => f.parameters[i]? = some p.name) a.schema f.arguments) ∧
        (args.length = f.parameters.length → ∀ key expected found,
          t.invoke method args properties ≠ .error (.arity key expected found)) := by
  refine ⟨fun c hc ds sources resolution declared loaded resolved e h => ?_, fun e => not_unfounded_of_compile, ?_⟩
  · exact (ContractFails.table declared loaded resolved h).not_unfounded
  · intro o ho t ht method args properties
    obtain ⟨runs, -, htables⟩ := exists_runs ho
    rw [htables] at ht
    obtain ⟨r, -, rfl⟩ := List.mem_map.mp ht
    refine ⟨Table.invokeWithin?_eq (fun f hf => ?_) args, fun f hf => ?_⟩
    · obtain ⟨m, -, a, -, hcarries⟩ := r.exists_carries_of_get? hf
      exact ⟨a.schema, hcarries.placed⟩
    · obtain ⟨m, -, a, ha, hcarries⟩ := r.exists_carries_of_get? hf
      have hplaced := hcarries.placed
      refine ⟨hplaced.slot, hplaced.within, hplaced.increasing, hplaced.apart, ?_, ?_⟩
      · exact ⟨a, ha, hplaced.each.length_eq.symm, hplaced.each⟩
      · exact fun hlength key expected found => Table.invoke_ne_arity hf ha hplaced hlength

/-- A method with an ignored last parameter: no call with three arguments is refused for the number. -/
theorem compile_places_greeting :
    ∃ o, compile Greetings.settings [Greetings.contract] Greetings.sources = .ok o ∧ ∃ t ∈ o.tables,
      ∃ f, t.methods.get? "greeting" = some f ∧ f.localeSlot = 0 ∧ f.arguments = [1] ∧
        (∀ i ∈ f.arguments, i < f.parameters.length) ∧
        ∀ args properties, args.length = 3 → ∀ key expected found,
          t.invoke "greeting" args properties ≠ .error (.arity key expected found) := by
  obtain ⟨o, ho, t, ht, f, hf, hslot, harguments, hparameters⟩ :
      ∃ o, compile Greetings.settings [Greetings.contract] Greetings.sources = .ok o ∧ ∃ t ∈ o.tables,
        ∃ f, t.methods.get? "greeting" = some f ∧ f.localeSlot = 0 ∧ f.arguments = [1] ∧ f.parameters.length = 3 :=
    ⟨_, rfl, _, List.mem_singleton.mpr rfl, _, rfl, rfl, rfl, rfl⟩
  have hplaces := (compile_places Greetings.settings [Greetings.contract] Greetings.sources).2.2 o ho t ht "greeting"
  refine ⟨o, ho, t, ht, f, hf, hslot, harguments, ?_, fun args properties hlength => ?_⟩
  · exact ((hplaces [] fun _ => none).2 f hf).2.1
  · exact ((hplaces args properties).2 f hf).2.2.2.2.2 (hlength.trans hparameters.symm)

end Compile

end Phrasebook
