import Phrasebook.Proofs.Compile.Apart
import Phrasebook.Proofs.Compile.Failure
import Phrasebook.Proofs.Name.Identifier

/-!
# Distinct identifiers of a generated module

A compilation refuses names that would get one identifier in one scope of the generated module. What it yields has
distinct identifiers in every scope, and what it refuses are two names of one scope that do have one identifier.

## Layers

- `Table.collision_of_ofCatalog`: the collisions of one table.
- `Namespace`: the scopes of a compilation, with their names and how these become identifiers.
- `collision_of_contractFails`: the collisions of one contract are those of its table; no other stage reports one.
- `compile_identifiers`: the identifiers of a compilation and the collisions that it reports.
-/

namespace Phrasebook

open Phrasebook.Name

/-! ## §1 Tables -/

namespace Table

variable {c : Catalog} {locales : List String} {defaultLocale : String} {scope : Scope} {k : Collision}

/-- A table reports a collision of the parameters of a key, of the parameters of a method or of the methods. -/
theorem collision_of_ofCatalog {ds : List Declaration}
    (h : ofCatalog c ds locales defaultLocale = .error (.identifierCollision scope k)) :
    (∃ key e, c.entries.get? key = some e ∧ scope = .keyParameters c.contract key ∧
        k.Among ofParameter e.schema.names) ∨
      (∃ d ∈ ds, scope = .methodParameters c.contract d.method ∧ k.Among ofParameter d.methodParameters) ∨
      scope = .methods c.contract ∧ k.Among ofMethod (ds.map (·.method)) := by
  cases fails_of_ofCatalog h with
  | keyParameters found hnames => exact .inl ⟨_, _, found, of_ensureDistinct hnames⟩
  | methodParameters mem hnames => exact .inr (.inl ⟨_, mem, of_ensureDistinct hnames⟩)
  | methods hnames => exact .inr (.inr (of_ensureDistinct hnames))
  -- A method that cannot be forwarded is refused with an error of its own.
  | forwarding mem hforwarding =>
    rcases exists_fault_of_forwardingOf hforwarding with ⟨-, hfault⟩ | ⟨_, _, -, -, -, hfault⟩
    · cases hfault
    · cases hfault

end Table

/-! ## §2 Compilations that fail -/

namespace Compile

variable {s : Settings} {loader : SourceLoader} {scope : Scope} {k : Collision}

/-- The scopes of a compilation, with their names and what makes these identifiers. -/
inductive Namespace (s : Settings) (cs : List Contract) (loader : SourceLoader) :
    Scope → (String → String) → List String → Prop
  | locales : Namespace s cs loader .locales ofLocale s.locales
  | properties : Namespace s cs loader .properties ofProperty s.properties.keys
  | contracts : Namespace s cs loader .contracts ofContract (cs.map (·.name))
  /-- The parameters that the methods and the sources of a contract give to a key. -/
  | keyParameters {c : Contract} {ds : List Declaration} {sources : FileSources} {resolution : SchemaResolution}
      {key : String} {schema : KeySchema} (mem : c ∈ cs) (declared : c.declarations = .ok ds)
      (loaded : loadFile loader (c.fileName s.package) s.locales = .ok sources)
      (resolved : SchemaResolution.resolve c.name ds sources.entries = .ok resolution)
      (found : resolution.schemas.get? key = some schema) :
      Namespace s cs loader (.keyParameters c.name key) ofParameter schema.parameters.names
  | methodParameters {c : Contract} {m : Method} (mem : c ∈ cs) (declares : m ∈ c.methods) :
      Namespace s cs loader (.methodParameters c.name m.name) ofParameter (m.parameters.map (·.name))
  | methods {c : Contract} (mem : c ∈ cs) :
      Namespace s cs loader (.methods c.name) ofMethod (c.methods.map (·.name))

/-- A collision in a scope of a compilation. -/
def IsCollision (s : Settings) (cs : List Contract) (loader : SourceLoader) (scope : Scope) (k : Collision) : Prop :=
  ∃ derive names, Namespace s cs loader scope derive names ∧ k.Among derive names

theorem collision_of_validate {cs : List Contract} (h : s.validate = .error (.identifierCollision scope k)) :
    IsCollision s cs loader scope k := by
  unfold Settings.validate at h
  split at h
  · cases Except.error.inj h
  · split at h
    · cases Except.error.inj h
    · rcases bind_eq_error.mp h with hlocales | ⟨_, -, hproperties⟩
      · obtain ⟨rfl, hamong⟩ := of_ensureDistinct hlocales
        exact ⟨_, _, .locales, hamong⟩
      · obtain ⟨rfl, hamong⟩ := of_ensureDistinct hproperties
        exact ⟨_, _, .properties, hamong⟩

theorem collision_of_checkModules {cs : List Contract}
    (h : checkModules cs = .error (.identifierCollision scope k)) : IsCollision s cs loader scope k := by
  unfold checkModules at h
  split at h
  · cases h
  · rename_i found
    split at h
    · -- A name that comes twice is no collision here: it is told when its contract comes again.
      cases h
    · obtain ⟨rfl, rfl⟩ := CompileError.identifierCollision.inj (Except.error.inj h)
      exact ⟨_, _, .contracts, of_firstCollision? found⟩

/-- The collisions of a contract are those of its table. -/
theorem collision_of_contractFails {cs : List Contract} {c : Contract} (hc : c ∈ cs)
    (h : ContractFails s loader c (.identifierCollision scope k)) : IsCollision s cs loader scope k := by
  cases h with
  | declarations hdeclarations =>
    obtain ⟨m, -, fault, -, hfault⟩ := Contract.exists_fault_of_declarations hdeclarations
    cases hfault
  | sources hsources =>
    obtain ⟨locale, -, path, cause, -, hsource⟩ := exists_source_of_loadFile hsources
    cases hsource
  | schemas _ _ hresolve => cases SchemaResolution.fails_of_resolve hresolve
  | table hds hsources hresolution htable =>
    rcases Table.collision_of_ofCatalog htable with ⟨key, e, he, rfl, hamong⟩ | ⟨d, hd, rfl, hamong⟩ | ⟨rfl, hamong⟩
    · -- The entry of a key has the parameters of its schema.
      simp only [Assembly.assemble, KeyMap.get?_mapValues, Option.map_eq_some_iff] at he
      obtain ⟨schema, hschema, rfl⟩ := he
      exact ⟨_, _, .keyParameters hc hds hsources hresolution hschema, hamong⟩
    · obtain ⟨m, hm, hmd⟩ := exists_of_forall₂_of_mem_right (declarations_eq_ok_iff.mp hds) hd
      obtain ⟨hname, -, hparameters⟩ := Declaration.of_ofMethod hmd
      rw [hparameters] at hamong
      rw [hname]
      exact ⟨_, _, .methodParameters hc hm, hamong⟩
    · rw [methods_of_declarations hds] at hamong
      exact ⟨_, _, .methods hc, hamong⟩

theorem collision_of_compile {cs : List Contract}
    (h : compile s cs loader = .error (.identifierCollision scope k)) : IsCollision s cs loader scope k := by
  rcases exists_cause h with hvalidate | hmodules | ⟨c, hc, hfails⟩
  · exact collision_of_validate hvalidate
  · exact collision_of_checkModules hmodules
  · exact collision_of_contractFails hc hfails

/-! ## §3 Compilations that succeed -/

/-- In the function of a key, the locale, the properties and the parameters have distinct identifiers. -/
theorem ContractRun.parameters_nodup (r : ContractRun s loader) {a : Accessor} (ha : a ∈ r.table.accessors.values) :
    ("locale" :: "props" :: a.schema.names.map ofParameter).Nodup := by
  obtain ⟨e, he, rfl⟩ := List.mem_map.mp ha
  have hother : ∀ word ∈ taken, word ∉ e.2.schema.names.map ofParameter := by
    intro word hword hmem
    obtain ⟨name, -, rfl⟩ := List.mem_map.mp hmem
    exact ofParameter_not_mem_taken name hword
  rw [List.nodup_cons, List.nodup_cons, List.mem_cons, not_or]
  exact ⟨⟨by decide, hother "locale" (by decide)⟩, hother "props" (by decide),
    Table.idents_nodup_of_get? r.generated (KeyMap.mem_entries_iff.mp he)⟩

/-- So have the properties and the parameters in the function of a method. -/
theorem ContractRun.methodParameters_nodup (r : ContractRun s loader) {f : Forwarding}
    (hf : f ∈ r.table.methods.values) : ("props" :: f.parameters.map ofParameter).Nodup := by
  obtain ⟨e, he, rfl⟩ := List.mem_map.mp hf
  obtain ⟨d, hd, -, hfd⟩ := (Table.get?_methods_eq_some_iff r.generated).mp (KeyMap.mem_entries_iff.mp he)
  rw [List.nodup_cons, (Table.name_of_forwardingOf hfd).2]
  refine ⟨fun hmem => ?_, (Table.ofCatalog_eq_ok_iff.mp r.generated).1.2.2.2 d hd⟩
  obtain ⟨name, -, hname⟩ := List.mem_map.mp hmem
  exact ofParameter_not_mem_taken name (hname ▸ by decide)

/-- The methods of a table are those of its contract, and have distinct identifiers. -/
theorem ContractRun.methods_nodup (r : ContractRun s loader) :
    (r.table.methods.values.map (·.name)).Perm (r.contract.methods.map (·.name)) ∧
      (r.contract.methods.map fun m => ofMethod m.name).Nodup := by
  have hnames := methods_of_declarations r.declared
  refine ⟨hnames ▸ Table.names_methods_perm r.generated, ?_⟩
  obtain ⟨-, fs, hfs, hnodup, -⟩ := Table.ofCatalog_eq_ok_iff.mp r.generated
  have hsame : (fs.map fun f => ofMethod f.name) = r.contract.methods.map fun m => ofMethod m.name := by
    have hmap := congrArg (List.map ofMethod) ((Table.names_of_forwardings hfs).trans hnames)
    rwa [List.map_map, List.map_map] at hmap
  rwa [hsame] at hnodup

/-- **Identifiers** of a generated module are distinct in each scope, and a compilation that reports a collision of
identifiers has two names at different places of one scope that get this identifier. -/
theorem compile_identifiers (s : Settings) (cs : List Contract) (loader : SourceLoader) :
    (∀ o, compile s cs loader = .ok o →
      (s.locales.map ofLocale).Nodup ∧ (s.properties.keys.map ofProperty).Nodup ∧
      (cs.map fun c => ofContract c.name).Nodup ∧
      List.Forall₂ (fun c t => t.contract = c.name ∧
        (∀ a ∈ t.accessors.values, ("locale" :: "props" :: a.schema.names.map ofParameter).Nodup) ∧
        (∀ f ∈ t.methods.values, ("props" :: f.parameters.map ofParameter).Nodup) ∧
        (t.methods.values.map (·.name)).Perm (c.methods.map (·.name)) ∧
        (c.methods.map fun m => ofMethod m.name).Nodup) cs o.tables) ∧
    ∀ scope k, compile s cs loader = .error (.identifierCollision scope k) →
      ∃ derive names, Namespace s cs loader scope derive names ∧ [k.first, k.second].Sublist names ∧
        derive k.first = k.ident ∧ derive k.second = k.ident := by
  refine ⟨fun o h => ?_, fun scope k h => collision_of_compile h⟩
  obtain ⟨⟨hvalid, hmodules, hnames⟩, runs, rfl, rfl⟩ := compile_eq_ok_iff.mp h
  -- Locales, properties and contracts are checked once; the other three namespaces belong to one contract each.
  obtain ⟨-, hlocales, hproperties⟩ := Settings.validate_eq_ok_iff.mp hvalid
  refine ⟨hlocales, hproperties, (checkModules_eq_ok_iff hnames).mp hmodules, ?_⟩
  rw [forall₂_map_same_iff]
  intro r _
  exact ⟨r.table_contract, fun a => r.parameters_nodup, fun f => r.methodParameters_nodup, r.methods_nodup⟩

/-- A contract whose key has parameters of different names, but not of different identifiers. -/
def Greetings.sameParameters : Contract :=
  ⟨"app.Greetings", none, [⟨"greeting", none,
    [⟨"locale", "Locale", .locale⟩, ⟨"guestName", "text", .argument⟩, ⟨"guest_name", "text", .argument⟩]⟩]⟩

theorem compile_identifiers_greetings :
    (∃ o, compile Greetings.settings [Greetings.contract] Greetings.sources = .ok o ∧ ∃ t, o.tables = [t] ∧
      ∀ f ∈ t.methods.values, ("props" :: f.parameters.map ofParameter).Nodup) ∧
    ∃ k : Collision, k = ⟨"guest_name", "guestName", "guest_name"⟩ ∧
      compile Greetings.settings [Greetings.sameParameters] Greetings.sources
        = .error (.identifierCollision (.keyParameters "app.Greetings" "greeting") k) ∧
      ∃ derive names, Namespace Greetings.settings [Greetings.sameParameters] Greetings.sources
          (.keyParameters "app.Greetings" "greeting") derive names ∧
        [k.first, k.second].Sublist names ∧ derive k.first = k.ident ∧ derive k.second = k.ident := by
  obtain ⟨o, ho⟩ : ∃ o, compile Greetings.settings [Greetings.contract] Greetings.sources = .ok o := ⟨_, rfl⟩
  obtain ⟨-, -, -, htables⟩ := (compile_identifiers Greetings.settings [Greetings.contract] Greetings.sources).1 o ho
  obtain ⟨t, ht, -, -, hmethods, -⟩ := exists_of_forall₂_singleton htables
  refine ⟨⟨o, ho, t, ht, hmethods⟩, _, rfl, rfl, ?_⟩
  exact (compile_identifiers Greetings.settings [Greetings.sameParameters] Greetings.sources).2 _ _ rfl

end Compile

end Phrasebook
