import Phrasebook.Proofs.Compile.Run
import Phrasebook.Proofs.Contract.Declaration

/-!
# Errors of a compilation

A compilation ends with the first error of a stage. The settings and the modules are checked first; then each contract
has its methods read, its file loaded, its schemas resolved and its table made. Every stage has errors of its own.

## Layers

1. **Stages**: which errors the declarations, the sources and the schemas of a contract can end with.
2. **Tables**: `Table.Fails` lists what can be wrong with a table.
3. **Contracts**: `ContractFails` lists the stages of one contract; a step of a compilation fails in one of them.
4. **Compilations**: `exists_cause` finds the stage of an error, by induction on the contracts.
-/

namespace Phrasebook

open Phrasebook.Name

/-! ## §1 Stages of a contract -/

/-- A fault that a method has by itself, whatever the other methods and the sources are. -/
inductive MethodFault.Own : MethodFault → Prop
  | localeCount (found : Nat) : Own (.localeCount found)
  | repeatedParameter (name : String) : Own (.repeatedParameter name)
  | invalidType (name : String) (cause : TypeError) : Own (.invalidType name cause)

theorem Declaration.own_of_readParameters {seen : List String} {ms : List MethodParameter} {fault : MethodFault}
    (h : readParameters seen ms = .error fault) : fault.Own := by
  induction ms generalizing seen with
  | nil => cases h
  | cons m ms ih =>
    unfold readParameters at h
    split at h
    · obtain rfl := Except.error.inj h
      exact .repeatedParameter m.name
    · split at h
      · -- Only an argument has its type read.
        split at h
        · obtain rfl := Except.error.inj h
          exact .invalidType m.name _
        · exact ih (map_eq_error.mp h)
      · exact ih h

theorem Declaration.own_of_ofMethod {m : Method} {fault : MethodFault} (h : ofMethod m = .error fault) : fault.Own := by
  unfold ofMethod at h
  split at h
  · exact own_of_readParameters (map_eq_error.mp h)
  · obtain rfl := Except.error.inj h
    exact .localeCount _

/-- The declarations of a contract end with the fault of one of its methods. -/
theorem Contract.exists_fault_of_declarations {c : Contract} {e : CompileError} (h : c.declarations = .error e) :
    ∃ m ∈ c.methods, ∃ fault : MethodFault, fault.Own ∧ e = .invalidDeclaration c.name m.name fault := by
  obtain ⟨m, hm, hfails⟩ := exists_of_traverse_eq_error h
  obtain ⟨fault, hfault, rfl⟩ := mapError_eq_error.mp hfails
  exact ⟨m, hm, fault, Declaration.own_of_ofMethod hfault, rfl⟩

/-- The loading of a file ends with the failure of one of its sources. -/
theorem Compile.exists_source_of_loadFile {loader : SourceLoader} {file : String} {locales : List String}
    {e : CompileError} (h : loadFile loader file locales = .error e) :
    ∃ locale ∈ locales, ∃ path cause, loader locale file = .failed path cause ∧ e = .source path cause := by
  induction locales with
  | nil => cases h
  | cons locale locales ih =>
    -- A source that is there leaves the error to those behind it, and so does one that is missing.
    have hrest : loadFile loader file locales = .error e →
        ∃ l ∈ locale :: locales, ∃ path cause, loader l file = .failed path cause ∧ e = .source path cause := by
      intro hfails
      obtain ⟨l, hl, hsource⟩ := ih hfails
      exact ⟨l, List.mem_cons_of_mem locale hl, hsource⟩
    unfold loadFile at h
    split at h
    · rename_i path cause hload
      obtain rfl := Except.error.inj h
      exact ⟨locale, List.mem_cons_self, path, cause, hload, rfl⟩
    · exact hrest (map_eq_error.mp h)
    · exact hrest (map_eq_error.mp h)

namespace SchemaResolution

/-- What can be wrong with the schemas of a contract: parameters that differ, or a tag that cannot be read. -/
inductive Fails : CompileError → Prop
  | conflict (key : String) (definitions : List String) : Fails (.schemaConflict key definitions)
  | tag (key origin : String) (cause : ParameterListError) : Fails (.invalidParameterList key origin cause)

theorem fails_of_collectDeclared {contract : String} {found : KeyMap Declaration} {ds : List Declaration}
    {e : CompileError} (h : collectDeclared contract found ds = .error e) : Fails e := by
  induction ds generalizing found with
  | nil => cases h
  | cons d ds ih =>
    unfold collectDeclared at h
    split at h
    · exact ih h
    · split at h
      · exact ih h
      · obtain rfl := Except.error.inj h
        exact .conflict _ _

theorem fails_of_tagsOf {key : String} {locales : List LocaleEntries} {e : CompileError}
    (h : tagsOf key locales = .error e) : Fails e := by
  obtain ⟨l, -, hl⟩ := exists_of_traverse_eq_error (map_eq_error.mp h)
  unfold tagIn at hl
  split at hl
  · cases hl
  · split at hl
    · obtain rfl := Except.error.inj hl
      exact .tag key _ _
    · cases hl

theorem fails_of_commonParameters {key : String} {ts : List KeyTag} {e : CompileError}
    (h : commonParameters key ts = .error e) : Fails e := by
  unfold commonParameters at h
  split at h
  · cases h
  · split at h
    · cases h
    · obtain rfl := Except.error.inj h
      exact .conflict key _

theorem fails_of_resolve {contract : String} {ds : List Declaration} {locales : List LocaleEntries} {e : CompileError}
    (h : resolve contract ds locales = .error e) : Fails e := by
  unfold resolve at h
  split at h
  · rename_i herror
    obtain rfl := Except.error.inj h
    exact fails_of_collectDeclared herror
  · -- The declarations agree, so the error is that of a key of the sources.
    obtain ⟨key, -, hkey⟩ := exists_of_traverse_eq_error (map_eq_error.mp h)
    unfold resolveKey at hkey
    split at hkey
    · rename_i herror
      obtain rfl := Except.error.inj hkey
      exact fails_of_tagsOf herror
    · split at hkey
      · cases hkey
      · exact fails_of_commonParameters (map_eq_error.mp hkey)

end SchemaResolution

/-! ## §2 Tables -/

namespace Table

variable {c : Catalog} {locales : List String} {defaultLocale : String} {error : CompileError}

/-- What can be wrong with a table: names that meet in a scope, a method that comes twice, or a method that cannot be
made. -/
inductive Fails (c : Catalog) (ds : List Declaration) : CompileError → Prop
  | accessors (k : Collision) : Fails c ds (.accessorCollision c.contract k)
  | keyParameters {key : String} {e : CatalogEntry} {error : CompileError} (found : c.entries.get? key = some e)
      (h : ensureDistinct (.keyParameters c.contract key) ofParameter e.schema.names = .error error) : Fails c ds error
  | repeated {d : Declaration} (mem : d ∈ ds) : Fails c ds (.invalidDeclaration c.contract d.method .repeatedMethod)
  | methodParameters {d : Declaration} {error : CompileError} (mem : d ∈ ds)
      (h : ensureDistinct (.methodParameters c.contract d.method) ofParameter d.methodParameters = .error error) :
      Fails c ds error
  | forwarding {d : Declaration} {error : CompileError} (mem : d ∈ ds) (h : forwardingOf c d = .error error) :
      Fails c ds error
  | methods {error : CompileError} (h : ensureDistinct (.methods c.contract) ofMethod (ds.map (·.method)) = .error error) :
      Fails c ds error

theorem fails_of_accessorsFrom {ds : List Declaration} {seen : List String} {es : List (String × CatalogEntry)}
    (hes : ∀ e ∈ es, c.entries.get? e.1 = some e.2)
    (h : accessorsFrom c locales defaultLocale seen es = .error error) : Fails c ds error := by
  induction es generalizing seen with
  | nil => cases h
  | cons e es ih =>
    obtain ⟨key, e⟩ := e
    unfold accessorsFrom at h
    split at h
    · obtain rfl := Except.error.inj h
      exact .accessors _
    · -- The accessor has a new name: the names of its parameters are next, then the other keys.
      rcases bind_eq_error.mp h with hnames | ⟨_, -, hrest⟩
      · exact .keyParameters (hes (key, e) List.mem_cons_self) hnames
      · rcases bind_eq_error.mp hrest with hrest | ⟨as, -, hpure⟩
        · exact ih (fun e he => hes e (List.mem_cons_of_mem _ he)) hrest
        · cases hpure

theorem fails_of_methodsFrom {ds all : List Declaration} (hds : ∀ d ∈ ds, d ∈ all) {seen : List String}
    (h : methodsFrom c seen ds = .error error) : Fails c all error := by
  -- By induction on the declarations, along the checks of the first one in their order.
  induction ds generalizing seen with
  | nil => cases h
  | cons d ds ih =>
    have hd := hds d List.mem_cons_self
    unfold methodsFrom at h
    split at h
    · obtain rfl := Except.error.inj h
      exact .repeated hd
    · rcases bind_eq_error.mp h with hnames | ⟨_, -, hrest⟩
      · exact .methodParameters hd hnames
      · rcases bind_eq_error.mp hrest with hforwarding | ⟨f, -, hrest⟩
        · exact .forwarding hd hforwarding
        · rcases bind_eq_error.mp hrest with hrest | ⟨fs, -, hpure⟩
          · exact ih (fun d hd => hds d (List.mem_cons_of_mem _ hd)) hrest
          · cases hpure

theorem fails_of_ofCatalog {ds : List Declaration} (h : ofCatalog c ds locales defaultLocale = .error error) :
    Fails c ds error := by
  rcases bind_eq_error.mp h with haccessors | ⟨as, -, hrest⟩
  · apply fails_of_accessorsFrom _ haccessors
    exact fun e he => KeyMap.mem_entries_iff.mp he
  · rcases bind_eq_error.mp hrest with hmethods | ⟨fs, hfs, hrest⟩
    · exact fails_of_methodsFrom (fun d hd => hd) hmethods
    · rcases bind_eq_error.mp hrest with hnames | ⟨_, -, hpure⟩
      · -- All methods have been made here, under the names of their declarations.
        rw [names_of_forwardings (methodsFrom_eq_ok_iff.mp hfs).2] at hnames
        exact .methods hnames
      · cases hpure

/-- A method that cannot be made lacks the entry of its key, or has no place for a parameter of the key. -/
theorem exists_fault_of_forwardingOf {d : Declaration} (h : forwardingOf c d = .error error) :
    (c.entries.get? d.key = none ∧ error = .invalidDeclaration c.contract d.method (.unknownKey d.key)) ∨
      ∃ e p, c.entries.get? d.key = some e ∧ p ∈ e.schema ∧ p.name ∉ d.methodParameters ∧
        error = .invalidDeclaration c.contract d.method (.unknownParameter p.name) := by
  unfold forwardingOf at h
  split at h
  · rename_i hnone
    exact .inl ⟨hnone, (Except.error.inj h).symm⟩
  · rename_i e he
    obtain ⟨p, hp, hplace⟩ := exists_of_traverse_eq_error (map_eq_error.mp h)
    unfold argumentPlace at hplace
    split at hplace
    · cases hplace
    · rename_i hnowhere
      refine .inr ⟨e, p, he, hp, fun hmem => ?_, (Except.error.inj hplace).symm⟩
      simpa using List.findIdx?_eq_none_iff.mp hnowhere p.name hmem

end Table

/-! ## §3 Contracts -/

namespace Compile

variable {s : Settings} {loader : SourceLoader}

/-- The stages of a contract with the errors that they end with. -/
inductive ContractFails (s : Settings) (loader : SourceLoader) (c : Contract) : CompileError → Prop
  /-- A contract of its name has been compiled before. -/
  | repeated : ContractFails s loader c (.duplicateContract c.name)
  | declarations {e : CompileError} (h : c.declarations = .error e) : ContractFails s loader c e
  | sources {e : CompileError} (h : loadFile loader (c.fileName s.package) s.locales = .error e) :
      ContractFails s loader c e
  | schemas {ds : List Declaration} {sources : FileSources} {e : CompileError} (declared : c.declarations = .ok ds)
      (loaded : loadFile loader (c.fileName s.package) s.locales = .ok sources)
      (h : SchemaResolution.resolve c.name ds sources.entries = .error e) : ContractFails s loader c e
  | table {ds : List Declaration} {sources : FileSources} {resolution : SchemaResolution} {e : CompileError}
      (declared : c.declarations = .ok ds)
      (loaded : loadFile loader (c.fileName s.package) s.locales = .ok sources)
      (resolved : SchemaResolution.resolve c.name ds sources.entries = .ok resolution)
      (h : Table.ofCatalog (Assembly.assemble ⟨c.name, c.fileName s.package, s.defaultLocale, s.properties⟩
        resolution.schemas sources.entries).catalog ds s.locales s.defaultLocale = .error e) :
      ContractFails s loader c e

theorem Progress.load_eq_error {p : Progress} {contract file : String} {e : CompileError}
    (h : p.load s loader contract file = .error e) : loadFile loader file s.locales = .error e := by
  unfold load at h
  split at h
  · cases h
  · exact map_eq_error.mp h

/-- The error of a step is that of a stage of its contract, whether the file of the contract is loaded or kept. -/
theorem Progress.fails_of_step {p : Progress} (hp : p.Consistent s loader) {c : Contract} {e : CompileError}
    (h : p.step s loader c = .error e) : ContractFails s loader c e := by
  unfold step at h
  split at h
  · obtain rfl := Except.error.inj h
    exact .repeated
  · -- Each stage has the results of the stages before it.
    rcases bind_eq_error.mp h with hdeclarations | ⟨ds, hds, hrest⟩
    · exact .declarations hdeclarations
    · rcases bind_eq_error.mp hrest with hload | ⟨x, hload, hrest⟩
      · exact .sources (load_eq_error hload)
      · obtain ⟨sources, hsources, rfl⟩ := (Progress.load_eq_ok_iff hp).mp hload
        rcases bind_eq_error.mp hrest with hbuild | ⟨_, -, hpure⟩
        · rcases bind_eq_error.mp hbuild with hresolve | ⟨resolution, hresolution, hrest⟩
          · exact .schemas hds hsources hresolve
          · rcases bind_eq_error.mp hrest with htable | ⟨_, -, hpure⟩
            · exact .table hds hsources hresolution htable
            · cases hpure
        · cases hpure

/-! ## §4 Compilations -/

theorem Progress.exists_fails_of_run {p : Progress} (hp : p.Consistent s loader) {cs : List Contract}
    {e : CompileError} (h : p.run s loader cs = .error e) : ∃ c ∈ cs, ContractFails s loader c e := by
  induction cs generalizing p with
  | nil => cases h
  | cons c cs ih =>
    rw [Progress.run] at h
    cases hstep : p.step s loader c with
    | error e' =>
      rw [hstep] at h
      obtain rfl := Except.error.inj h
      exact ⟨c, List.mem_cons_self, fails_of_step hp hstep⟩
    | ok p' =>
      -- The step has added a run, so what is kept of the files is still what the loader has.
      rw [hstep] at h
      obtain ⟨-, r, -, rfl⟩ := (Progress.step_eq_ok_iff hp).mp hstep
      obtain ⟨c', hc', hfails⟩ := ih (hp.after r) h
      exact ⟨c', List.mem_cons_of_mem c hc', hfails⟩

/-- The error of a compilation is that of the settings, of the modules or of a stage of a contract. -/
theorem exists_cause {cs : List Contract} {e : CompileError} (h : compile s cs loader = .error e) :
    s.validate = .error e ∨ checkModules cs = .error e ∨ ∃ c ∈ cs, ContractFails s loader c e := by
  rcases bind_eq_error.mp h with hvalidate | ⟨_, -, hrest⟩
  · exact .inl hvalidate
  · rcases bind_eq_error.mp hrest with hmodules | ⟨_, -, hrest⟩
    · exact .inr (.inl hmodules)
    · rcases bind_eq_error.mp hrest with hrun | ⟨_, -, hpure⟩
      · exact .inr (.inr (Progress.exists_fails_of_run Progress.consistent_start hrun))
      · cases hpure

end Compile

end Phrasebook
