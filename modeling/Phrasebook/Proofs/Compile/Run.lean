import Phrasebook.Compile.Run
import Phrasebook.Proofs.Accessor.Generation

/-!
# What a compilation does with each contract

A compilation takes the contracts one after another and keeps the phrases of the files it has loaded. What it makes
of a contract does not depend on the contracts before it.

## Layers

- `loadFile_eq_ok_iff`: what is loaded of one file.
- `ContractRun`: what is made of one contract, with the success of each stage.
- `Progress.step_eq_ok_iff`: a step adds the run of a contract.
- `Progress.run_eq_ok_iff` and `compile_eq_ok_iff`: a compilation is one run for each contract.
-/

namespace Phrasebook

/-- Settings are valid exactly when the default locale is one of the locales, and locales and properties have
distinct identifiers. -/
theorem Settings.validate_eq_ok_iff {s : Settings} :
    s.validate = .ok () ↔
      s.defaultLocale ∈ s.locales ∧ (s.locales.map Name.ofLocale).Nodup ∧
        (s.properties.keys.map Name.ofProperty).Nodup := by
  unfold Settings.validate
  by_cases hempty : s.locales = []
  · simp [hempty]
  · by_cases hdefault : s.defaultLocale ∈ s.locales
    · simp [hempty, hdefault, ensureDistinct_eq_ok_iff]
    · simp [hempty, hdefault]

namespace Compile

/-! ## §1 Loading a file -/

/-- The phrases of a file in a locale, if the locale has a source of it. -/
def sourceOf? (loader : SourceLoader) (file locale : String) : Option LocaleEntries :=
  match loader locale file with
  | .found path tree => some (LocaleEntries.ofTree locale path tree).named
  | _ => none

/-- The locale with the path of the source it has not. -/
def missingOf? (loader : SourceLoader) (file locale : String) : Option (String × String) :=
  match loader locale file with
  | .missing path => some (locale, path)
  | _ => none

/-- A file is loaded in all locales exactly when no source of it fails. -/
theorem loadFile_eq_ok_iff {loader : SourceLoader} {file : String} {locales : List String} {r : FileSources} :
    loadFile loader file locales = .ok r ↔
      (∀ locale ∈ locales, ∀ path cause, loader locale file ≠ .failed path cause) ∧
        r = ⟨locales.filterMap (sourceOf? loader file), locales.filterMap (missingOf? loader file)⟩ := by
  induction locales generalizing r with
  | nil => simp [loadFile, eq_comm]
  | cons locale locales ih =>
    cases hload : loader locale file with
    | found path tree =>
      simp only [loadFile, hload, map_eq_ok_iff_of_forall fun r => @ih r, List.forall_mem_cons, List.filterMap_cons,
        sourceOf?, missingOf?, ne_eq, reduceCtorEq, not_false_eq_true, implies_true, true_and]
    | missing path =>
      simp only [loadFile, hload, map_eq_ok_iff_of_forall fun r => @ih r, List.forall_mem_cons, List.filterMap_cons,
        sourceOf?, missingOf?, ne_eq, reduceCtorEq, not_false_eq_true, implies_true, true_and]
    | failed path cause =>
      simp only [loadFile, hload, reduceCtorEq, false_iff, not_and]
      intro hall
      exact absurd hload (hall locale List.mem_cons_self path cause)

/-! ## §2 One contract -/

/-- What is made of a contract, with the stages it is made in. -/
structure ContractRun (s : Settings) (loader : SourceLoader) where
  contract : Contract
  declarations : List Declaration
  /-- The phrases of its file. -/
  sources : FileSources
  /-- The schemas of its keys. -/
  resolution : SchemaResolution
  table : Table
  /-- The methods can be read. -/
  declared : contract.declarations = .ok declarations
  loaded : loadFile loader (contract.fileName s.package) s.locales = .ok sources
  resolved : SchemaResolution.resolve contract.name declarations sources.entries = .ok resolution
  /-- The table can be made. -/
  generated : Table.ofCatalog (Assembly.assemble
      ⟨contract.name, contract.fileName s.package, s.defaultLocale, s.properties⟩
      resolution.schemas sources.entries).catalog declarations s.locales s.defaultLocale = .ok table

namespace ContractRun

variable {s : Settings} {loader : SourceLoader}

/-- The file of the contract. -/
def file (r : ContractRun s loader) : String := r.contract.fileName s.package

/-- The catalog of the contract, with what is reported of it. -/
def assembly (r : ContractRun s loader) : Assembly :=
  Assembly.assemble ⟨r.contract.name, r.file, s.defaultLocale, s.properties⟩ r.resolution.schemas r.sources.entries

/-- What is reported of the contract, its file apart. -/
def issues (r : ContractRun s loader) : List Issue := r.resolution.issues ++ r.assembly.issues

theorem sources_entries (r : ContractRun s loader) :
    r.sources.entries = s.locales.filterMap (sourceOf? loader r.file) := by
  rw [(loadFile_eq_ok_iff.mp r.loaded).2]
  rfl

theorem sources_missing (r : ContractRun s loader) :
    r.sources.missing = s.locales.filterMap (missingOf? loader r.file) := by
  rw [(loadFile_eq_ok_iff.mp r.loaded).2]
  rfl

/-- What is made of a contract does not depend on what was made before. -/
theorem eq_of_contract_eq {r r' : ContractRun s loader} (h : r.contract = r'.contract) : r = r' := by
  -- Each stage is a function of the contract and of the stages before it.
  obtain ⟨c, ds, sources, resolution, table, hds, hsources, hresolution, htable⟩ := r
  obtain ⟨c', ds', sources', resolution', table', hds', hsources', hresolution', htable'⟩ := r'
  obtain rfl : c = c' := h
  obtain rfl : ds = ds' := Except.ok.inj (hds.symm.trans hds')
  obtain rfl : sources = sources' := Except.ok.inj (hsources.symm.trans hsources')
  obtain rfl : resolution = resolution' := Except.ok.inj (hresolution.symm.trans hresolution')
  obtain rfl : table = table' := Except.ok.inj (htable.symm.trans htable')
  rfl

theorem buildTable_eq_ok (r : ContractRun s loader) :
    buildTable s r.contract.name r.file r.declarations r.sources.entries = .ok (r.table, r.issues) := by
  simp only [buildTable, bind_eq_ok, pure_eq_ok]
  exact ⟨r.resolution, r.resolved, r.table, r.generated, rfl⟩

end ContractRun

/-! ## §3 One step -/

variable {s : Settings} {loader : SourceLoader}

/-- The phrases that are kept of a file are those that the loader has of it. -/
def Progress.Consistent (p : Progress) (s : Settings) (loader : SourceLoader) : Prop :=
  ∀ file entries, p.loaded.get? file = some entries →
    ∃ missing, loadFile loader file s.locales = .ok ⟨entries, missing⟩

/-- The progress behind the run of one more contract: a file that has not been loaded before is kept and counted,
and the sources it lacks are reported. -/
def Progress.after (p : Progress) (r : ContractRun s loader) : Progress :=
  match p.loaded.get? r.file with
  | some _ => { p with tables := p.tables ++ [r.table], issues := p.issues ++ r.issues }
  | none =>
    { loaded := p.loaded.insert r.file r.sources.entries
      tables := p.tables ++ [r.table]
      issues := p.issues ++ missingIssues r.contract.name r.file r.sources.missing ++ r.issues
      sourceFiles := p.sourceFiles + r.sources.entries.length }

theorem Progress.consistent_start : Progress.start.Consistent s loader := by
  intro file entries h
  cases h

theorem Progress.Consistent.after {p : Progress} (hp : p.Consistent s loader) (r : ContractRun s loader) :
    (p.after r).Consistent s loader := by
  intro file entries h
  cases hget : p.loaded.get? r.file with
  | some kept =>
    simp only [Progress.after, hget] at h
    exact hp file entries h
  | none =>
    -- Only the file of the contract is new, and it is kept as it was loaded.
    simp only [Progress.after, hget, KeyMap.get?_insert] at h
    split at h
    · rename_i hfile
      obtain rfl : r.sources.entries = entries := Option.some.inj h
      exact ⟨r.sources.missing, hfile ▸ r.loaded⟩
    · exact hp file entries h

@[simp] theorem Progress.after_tables (p : Progress) (r : ContractRun s loader) :
    (p.after r).tables = p.tables ++ [r.table] := by
  unfold Progress.after
  split <;> rfl

/-- Whether a file is loaded or kept, a contract gets the phrases that the loader has of it. -/
theorem Progress.load_eq_ok_iff {p : Progress} (hp : p.Consistent s loader) {contract file : String}
    {x : List LocaleEntries × Progress} :
    p.load s loader contract file = .ok x ↔
      ∃ sources, loadFile loader file s.locales = .ok sources ∧
        x = (sources.entries, match p.loaded.get? file with
          | some _ => p
          | none => { p with
            loaded := p.loaded.insert file sources.entries
            issues := p.issues ++ missingIssues contract file sources.missing
            sourceFiles := p.sourceFiles + sources.entries.length }) := by
  unfold Progress.load
  cases hget : p.loaded.get? file with
  | none =>
    rw [map_eq_ok]
  | some entries =>
    -- What is kept of the file is what would be loaded of it again.
    obtain ⟨missing, hload⟩ := hp file entries hget
    simp only [hload, Except.ok.injEq, exists_eq_left']
    exact eq_comm

/-- A step succeeds exactly when the contract is a new one that can be compiled, and adds its run. -/
theorem Progress.step_eq_ok_iff {p p' : Progress} (hp : p.Consistent s loader) {c : Contract} :
    p.step s loader c = .ok p' ↔
      (∀ t ∈ p.tables, t.contract ≠ c.name) ∧ ∃ r : ContractRun s loader, r.contract = c ∧ p' = p.after r := by
  unfold Progress.step
  by_cases hnew : ∀ t ∈ p.tables, t.contract ≠ c.name
  · have hany : (p.tables.any fun t => t.contract == c.name) = false := by simpa using hnew
    simp only [hany, Bool.false_eq_true, ↓reduceIte, bind_eq_ok, pure_eq_ok, Progress.load_eq_ok_iff hp]
    refine ⟨fun h => ?_, fun h => ?_⟩
    · -- The stages that have succeeded are the fields of the run.
      obtain ⟨ds, hds, _, ⟨sources, hsources, rfl⟩, ⟨table, issues⟩, hbuild, rfl⟩ := h
      simp only [buildTable, bind_eq_ok, pure_eq_ok, Prod.mk.injEq] at hbuild
      obtain ⟨resolution, hresolution, table, htable, rfl, rfl⟩ := hbuild
      refine ⟨hnew, ⟨c, ds, sources, resolution, table, hds, hsources, hresolution, htable⟩, rfl, ?_⟩
      unfold Progress.after ContractRun.file
      cases p.loaded.get? (c.fileName s.package) <;> rfl
    · obtain ⟨-, r, rfl, rfl⟩ := h
      refine ⟨r.declarations, r.declared, _, ⟨r.sources, r.loaded, rfl⟩, _, r.buildTable_eq_ok, ?_⟩
      unfold Progress.after ContractRun.file
      cases p.loaded.get? (r.contract.fileName s.package) <;> rfl
  · have hany : (p.tables.any fun t => t.contract == c.name) = true := by simpa using hnew
    simp [hany, hnew]

/-! ## §4 The whole run -/

theorem ContractRun.table_contract (r : ContractRun s loader) : r.table.contract = r.contract.name :=
  Table.contract_of_ofCatalog r.generated

theorem contracts_of_runs (runs : List (ContractRun s loader)) :
    (runs.map (·.table)).map (·.contract) = runs.map fun r => r.contract.name := by
  rw [List.map_map]
  exact List.map_congr_left fun r _ => r.table_contract

/-- A run over contracts succeeds exactly when their names are new and distinct and each one can be compiled. -/
theorem Progress.run_eq_ok_iff {p p' : Progress} (hp : p.Consistent s loader) {cs : List Contract} :
    p.run s loader cs = .ok p' ↔
      ((∀ t ∈ p.tables, ∀ c ∈ cs, t.contract ≠ c.name) ∧ (cs.map (·.name)).Nodup) ∧
        ∃ runs : List (ContractRun s loader), runs.map (·.contract) = cs ∧ p' = runs.foldl Progress.after p := by
  induction cs generalizing p with
  | nil =>
    simp only [Progress.run, Except.ok.injEq, List.map_eq_nil_iff]
    refine ⟨fun h => ?_, fun h => ?_⟩
    · subst h
      exact ⟨⟨by simp, List.nodup_nil⟩, [], rfl, rfl⟩
    · obtain ⟨-, _, rfl, rfl⟩ := h
      rfl
  | cons c cs ih =>
    rw [Progress.run]
    cases hstep : p.step s loader c with
    | error e =>
      -- Runs of all contracts would begin with one of `c`, and then the step would succeed.
      simp only [reduceCtorEq, false_iff]
      intro h
      obtain ⟨⟨hnew, -⟩, runs, hruns, -⟩ := h
      obtain ⟨r, rs, rfl, hr, -⟩ := List.map_eq_cons_iff.mp hruns
      have hok := (Progress.step_eq_ok_iff hp).mpr ⟨fun t ht => hnew t ht c List.mem_cons_self, r, hr, rfl⟩
      rw [hstep] at hok
      cases hok
    | ok p₁ =>
      -- The other contracts must be new to the tables before the step and to that of `r`.
      obtain ⟨hhead, r, rfl, rfl⟩ := (Progress.step_eq_ok_iff hp).mp hstep
      simp only [ih (hp.after r), Progress.after_tables, List.mem_append, List.mem_singleton]
      refine ⟨fun h => ?_, fun h => ?_⟩
      · obtain ⟨⟨hnew, hnodup⟩, runs, rfl, rfl⟩ := h
        refine ⟨⟨fun t ht => List.forall_mem_cons.mpr ⟨hhead t ht, hnew t (.inl ht)⟩, ?_⟩, r :: runs, rfl, rfl⟩
        rw [List.map_cons, List.nodup_cons]
        refine ⟨fun hmem => ?_, hnodup⟩
        obtain ⟨c, hc, hname⟩ := List.mem_map.mp hmem
        exact hnew r.table (.inr rfl) c hc (r.table_contract.trans hname.symm)
      · obtain ⟨⟨hnew, hnodup⟩, runs, hruns, rfl⟩ := h
        obtain ⟨r', rs, rfl, hr, rfl⟩ := List.map_eq_cons_iff.mp hruns
        obtain rfl : r' = r := ContractRun.eq_of_contract_eq hr
        rw [List.map_cons, List.nodup_cons] at hnodup
        refine ⟨⟨fun t ht c hc => ?_, hnodup.2⟩, rs, rfl, rfl⟩
        rcases ht with ht | rfl
        · exact hnew t ht c (List.mem_cons_of_mem _ hc)
        · intro hname
          exact hnodup.1 (List.mem_map.mpr ⟨c, hc, hname.symm.trans r'.table_contract⟩)

theorem foldl_after_tables (runs : List (ContractRun s loader)) (p : Progress) :
    (runs.foldl Progress.after p).tables = p.tables ++ runs.map (·.table) := by
  induction runs generalizing p with
  | nil => simp
  | cons r runs ih =>
    rw [List.foldl_cons, ih, Progress.after_tables, List.append_assoc]
    rfl

/-- **Compilation** succeeds exactly when the settings are valid, the contracts have distinct modules and names, and
each contract can be compiled; its output is that of the runs of the contracts in their order. -/
theorem compile_eq_ok_iff {cs : List Contract} {o : CompileOutput} :
    compile s cs loader = .ok o ↔
      (s.validate = .ok () ∧ checkModules cs = .ok () ∧ (cs.map (·.name)).Nodup) ∧
        ∃ runs : List (ContractRun s loader), runs.map (·.contract) = cs ∧
          o = ⟨s, runs.map (·.table), (runs.foldl Progress.after .start).issues,
            (runs.foldl Progress.after .start).sourceFiles⟩ := by
  simp only [compile, bind_eq_ok, pure_eq_ok, Progress.run_eq_ok_iff Progress.consistent_start]
  -- The checks are done in order, and then the contracts are run from a start that is consistent.
  refine ⟨fun h => ?_, fun h => ?_⟩
  · obtain ⟨⟨⟩, hvalid, ⟨⟩, hmodules, _, ⟨⟨-, hnodup⟩, runs, rfl, rfl⟩, rfl⟩ := h
    refine ⟨⟨hvalid, hmodules, hnodup⟩, runs, rfl, ?_⟩
    rw [foldl_after_tables]
    rfl
  · obtain ⟨⟨hvalid, hmodules, hnodup⟩, runs, rfl, rfl⟩ := h
    refine ⟨⟨⟩, hvalid, ⟨⟩, hmodules, _, ⟨⟨fun t ht => absurd ht List.not_mem_nil, hnodup⟩, runs, rfl, rfl⟩, ?_⟩
    rw [foldl_after_tables]
    rfl

/-- The tables of a compilation are those of the runs of its contracts. -/
theorem exists_runs {cs : List Contract} {o : CompileOutput} (h : compile s cs loader = .ok o) :
    ∃ runs : List (ContractRun s loader), runs.map (·.contract) = cs ∧ o.tables = runs.map (·.table) := by
  obtain ⟨-, runs, hcs, rfl⟩ := compile_eq_ok_iff.mp h
  exact ⟨runs, hcs, rfl⟩

theorem validate_of_compile {cs : List Contract} {o : CompileOutput} (h : compile s cs loader = .ok o) :
    s.validate = .ok () :=
  (compile_eq_ok_iff.mp h).1.1

theorem contracts_nodup_of_compile {cs : List Contract} {o : CompileOutput} (h : compile s cs loader = .ok o) :
    (o.tables.map (·.contract)).Nodup := by
  obtain ⟨⟨-, -, hnodup⟩, runs, rfl, rfl⟩ := compile_eq_ok_iff.mp h
  rw [contracts_of_runs]
  rwa [List.map_map] at hnodup

/-! ## §5 A small compilation -/

namespace Greetings

/-- Three locales, the second of which is the default one, and a property. -/
def settings : Settings :=
  ⟨defaultManagerName, ["en-US", "de-DE", "fr-FR"], "de-DE", "app", .ofList [("brand", .builtin .text false)]⟩

/-- A contract with one method, whose last parameter is ignored. -/
def contract : Contract :=
  ⟨"app.Greetings", none,
    [⟨"greeting", none, [⟨"locale", "Locale", .locale⟩, ⟨"name", "text", .argument⟩, ⟨"caller", "Caller", .ignored⟩]⟩]⟩

/-- A contract without methods, whose phrases are those of the other one. -/
def visitor : Contract := ⟨"app.Visitor", some "greetings", []⟩

/-- Only the first locale has the undeclared key, and the last locale has no source. -/
def sources : SourceLoader := fun locale _ =>
  if locale = "en-US" then
    .found "en_us/greetings.yaml" (.branch [
      ("greeting", .leaf ⟨"Hello {name} of {brand}", none⟩),
      ("farewell", .leaf ⟨"Bye {guest}", some "guest:text?"⟩)])
  else if locale = "de-DE" then
    .found "de_de/greetings.yaml" (.branch [("greeting", .leaf ⟨"Hallo {name}", some "name:text"⟩)])
  else .missing "fr_fr/greetings.yaml"

end Greetings

end Compile

end Phrasebook
