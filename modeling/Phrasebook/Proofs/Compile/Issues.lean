import Phrasebook.Proofs.Catalog.Assembly
import Phrasebook.Proofs.Catalog.Schema
import Phrasebook.Proofs.Compile.Run
import Mathlib.Data.Finset.Prod
import Mathlib.Data.Finset.Dedup
import Mathlib.Algebra.Order.Group.Nat

/-!
# What a compilation reports and counts

A compilation goes from contract to contract, and a file is loaded for the first contract that has it. What it has
reported and counted by then is told from the runs of the contracts alone.

## Layers

- `issuesTogether`: the issues of several contracts, each file loaded once.
- `foundSources`: the sources that there are of some files.
- `Progress.Follows`: a progress has the issues and the count of the runs that it has behind it; `Follows.after` is
  one step, and `Follows.foldl` all of them.
- `compile_eq_ok_iff_outputOf`: a compilation yields what the runs of its contracts do.
- `filter_issues_outputOf`: the gaps and unknown placeholders of one contract are those of its assembly.
-/

namespace Phrasebook

namespace Compile

/-! ## §1 Issues of several contracts -/

/-- The issues of contracts, given with the files of the contracts. A contract whose file is among those `seen`, or
that of an earlier contract, has no missing sources: these were told before. -/
def issuesTogether (seen : List String) : List (String × List Issue) → List Issue
  | [] => []
  | (file, issues) :: rest =>
    (if file ∈ seen then issues.filter fun i => i.rule ≠ .missingSource else issues)
      ++ issuesTogether (file :: seen) rest

/-- A further contract adds its issues at the end. -/
theorem issuesTogether_concat (seen : List String) (xs : List (String × List Issue)) (file : String)
    (issues : List Issue) :
    issuesTogether seen (xs ++ [(file, issues)]) = issuesTogether seen xs ++
      if file ∈ seen ++ xs.map (·.1) then issues.filter fun i => i.rule ≠ .missingSource else issues := by
  induction xs generalizing seen with
  | nil => simp [issuesTogether]
  | cons x xs ih =>
    obtain ⟨file', issues'⟩ := x
    -- Whether a file was seen before or is that of a contract in front makes no difference.
    have hseen : file ∈ (file' :: seen) ++ xs.map (·.1) ↔ file ∈ seen ++ ((file', issues') :: xs).map (·.1) := by
      simp [or_left_comm]
    rw [List.cons_append, issuesTogether, ih, issuesTogether, List.append_assoc]
    simp only [hseen]

/-- But for missing sources, all issues of all contracts are told. -/
theorem filter_issuesTogether {q : Issue → Bool} (hq : ∀ i, q i = true → i.rule ≠ .missingSource)
    (seen : List String) (xs : List (String × List Issue)) :
    (issuesTogether seen xs).filter q = (xs.flatMap (·.2)).filter q := by
  induction xs generalizing seen with
  | nil => rfl
  | cons x xs ih =>
    obtain ⟨file, issues⟩ := x
    -- What is left out of a file that was seen are missing sources, and `q` takes none of these.
    have hhead : (issues.filter fun i => i.rule ≠ .missingSource).filter q = issues.filter q := by
      rw [List.filter_filter]
      apply List.filter_congr
      intro i _
      cases hi : q i with
      | true => simpa using hq i hi
      | false => rfl
    rw [issuesTogether, List.filter_append, ih, List.flatMap_cons, List.filter_append]
    split
    · rw [hhead]
    · rfl

/-- Nothing is told that is no issue of a contract. -/
theorem exists_of_mem_issuesTogether {i : Issue} {seen : List String} {xs : List (String × List Issue)}
    (h : i ∈ issuesTogether seen xs) : ∃ x ∈ xs, i ∈ x.2 := by
  induction xs generalizing seen with
  | nil => cases h
  | cons x xs ih =>
    obtain ⟨file, issues⟩ := x
    rw [issuesTogether, List.mem_append] at h
    rcases h with hhead | hrest
    · refine ⟨(file, issues), List.mem_cons_self, ?_⟩
      split at hhead
      · exact (List.mem_filter.mp hhead).1
      · exact hhead
    · obtain ⟨x, hx, hi⟩ := ih hrest
      exact ⟨x, List.mem_cons_of_mem _ hx, hi⟩

/-- All issues of the first contract of a file are told. -/
theorem exists_first_subset {seen : List String} {xs : List (String × List Issue)} {file : String}
    (hnew : file ∉ seen) (h : file ∈ xs.map (·.1)) :
    ∃ x ∈ xs, x.1 = file ∧ x.2 ⊆ issuesTogether seen xs := by
  -- By induction on the contracts: the first one of this file is new, so its issues are kept whole.
  induction xs generalizing seen with
  | nil => cases h
  | cons x xs ih =>
    obtain ⟨file', issues⟩ := x
    by_cases hfile : file' = file
    · subst hfile
      refine ⟨(file', issues), List.mem_cons_self, rfl, ?_⟩
      rw [issuesTogether, if_neg hnew]
      exact List.subset_append_left issues _
    · have hbehind : file ∈ xs.map (·.1) := (List.mem_cons.mp h).resolve_left (Ne.symm hfile)
      have hnext : file ∉ file' :: seen := by simp [Ne.symm hfile, hnew]
      obtain ⟨x, hx, hxfile, hsub⟩ := ih hnext hbehind
      refine ⟨x, List.mem_cons_of_mem _ hx, hxfile, ?_⟩
      rw [issuesTogether]
      exact fun i hi => List.mem_append_right _ (hsub hi)

/-! ## §2 Sources -/

/-- The files and locales that there is a source of. -/
def foundSources (loader : SourceLoader) (files locales : List String) : Finset (String × String) :=
  (files.toFinset ×ˢ locales.toFinset).filter fun x => (sourceOf? loader x.1 x.2).isSome

theorem foundSources_congr {loader : SourceLoader} {files files' locales : List String}
    (h : ∀ file, file ∈ files ↔ file ∈ files') :
    foundSources loader files locales = foundSources loader files' locales := by
  have hfiles : files.toFinset = files'.toFinset := by
    ext file
    simp [h]
  rw [foundSources, foundSources, hfiles]

/-- The sources of one file are as many as its phrases are of locales. -/
theorem card_foundSources_singleton {loader : SourceLoader} {locales : List String} (hnodup : locales.Nodup)
    (file : String) :
    (foundSources loader [file] locales).card = (locales.filterMap (sourceOf? loader file)).length := by
  have hpairs : foundSources loader [file] locales
      = ((locales.filter fun l => (sourceOf? loader file l).isSome).map fun l => (file, l)).toFinset := by
    ext x
    obtain ⟨f, l⟩ := x
    simp only [foundSources, Finset.mem_filter, Finset.mem_product, List.mem_toFinset, List.mem_singleton,
      List.mem_map, List.mem_filter, Prod.mk.injEq]
    refine ⟨fun h => ?_, fun h => ?_⟩
    · obtain ⟨⟨rfl, hl⟩, hfound⟩ := h
      exact ⟨l, ⟨hl, hfound⟩, rfl, rfl⟩
    · obtain ⟨l, ⟨hl, hfound⟩, rfl, rfl⟩ := h
      exact ⟨⟨rfl, hl⟩, hfound⟩
  -- Locales are different, so each source is counted once.
  have hdistinct : ((locales.filter fun l => (sourceOf? loader file l).isSome).map fun l => (file, l)).Nodup := by
    refine (hnodup.filter _).map ?_
    intro l l' heq
    exact (Prod.mk.inj heq).2
  rw [hpairs, List.toFinset_card_of_nodup hdistinct, List.length_map, List.length_filterMap_eq_countP,
    List.countP_eq_length_filter]

/-- The sources of a new file come on top of those of the others. -/
theorem card_foundSources_concat {loader : SourceLoader} {files locales : List String} {file : String}
    (hnew : file ∉ files) :
    (foundSources loader (files ++ [file]) locales).card
      = (foundSources loader files locales).card + (foundSources loader [file] locales).card := by
  have hunion : foundSources loader (files ++ [file]) locales
      = foundSources loader files locales ∪ foundSources loader [file] locales := by
    rw [foundSources, List.toFinset_append, Finset.union_product, Finset.filter_union]
    rfl
  -- A pair tells its file, and this file is new.
  have hdisjoint : Disjoint (foundSources loader files locales) (foundSources loader [file] locales) := by
    rw [Finset.disjoint_left]
    intro x hx hx'
    have hold : x.1 ∈ files := by simpa using (Finset.mem_product.mp (Finset.mem_filter.mp hx).1).1
    have hsame : x.1 = file := by simpa using (Finset.mem_product.mp (Finset.mem_filter.mp hx').1).1
    exact hnew (hsame ▸ hold)
  rw [hunion, Finset.card_union_of_disjoint hdisjoint]

/-! ## §3 One contract -/

variable {s : Settings} {loader : SourceLoader}

namespace ContractRun

/-- What is reported of a contract when its file is loaded for it. -/
def reported (r : ContractRun s loader) : List Issue :=
  missingIssues r.contract.name r.file r.sources.missing ++ r.issues

theorem rule_of_mem_missingIssues {contract file : String} {missing : List (String × String)} {i : Issue}
    (h : i ∈ missingIssues contract file missing) : i.rule = .missingSource := by
  obtain ⟨m, -, rfl⟩ := List.mem_map.mp h
  rfl

theorem exists_shadowedTag_of_mem (r : ContractRun s loader) {i : Issue} (h : i ∈ r.resolution.issues) :
    ∃ key locale path tag declared, i = .shadowedTag r.contract.name key locale path tag declared := by
  rw [(SchemaResolution.resolve_eq_ok_iff.mp r.resolved).2.2] at h
  obtain ⟨key, -, hkey⟩ := List.mem_flatMap.mp h
  obtain ⟨l, -, hl⟩ := List.mem_filterMap.mp hkey
  simp only [SchemaResolution.shadowedTag?, Option.bind_eq_some_iff] at hl
  obtain ⟨d, -, t, -, hif⟩ := hl
  split at hif
  · cases hif
  · obtain rfl := Option.some.inj hif
    exact ⟨_, _, _, _, _, rfl⟩

theorem rule_of_mem_issues (r : ContractRun s loader) {i : Issue} (h : i ∈ r.issues) :
    i.rule ≠ .missingSource := by
  rcases List.mem_append.mp h with hresolution | hassembly
  · obtain ⟨key, locale, path, tag, declared, rfl⟩ := r.exists_shadowedTag_of_mem hresolution
    simp [Issue.rule]
  · exact (Assembly.rule_of_mem_issues hassembly).1

/-- A contract is named in all that is reported of it. -/
theorem contract_of_mem_reported (r : ContractRun s loader) {i : Issue} (h : i ∈ r.reported) :
    i.contract? = some r.contract.name := by
  rcases List.mem_append.mp h with hmissing | hissues
  · obtain ⟨m, -, rfl⟩ := List.mem_map.mp hmissing
    rfl
  · rcases List.mem_append.mp hissues with hresolution | hassembly
    · obtain ⟨key, locale, path, tag, declared, rfl⟩ := r.exists_shadowedTag_of_mem hresolution
      rfl
    · exact Assembly.contract_of_mem_issues hassembly

/-- But for missing sources and shadowed tags, what is reported of a contract comes from its assembly. -/
theorem filter_reported_eq_assembly (r : ContractRun s loader) {q : Issue → Bool}
    (hq : ∀ i, q i = true → i.rule ≠ .missingSource ∧ i.rule ≠ .shadowedTag) :
    r.reported.filter q = r.assembly.issues.filter q := by
  have hmissing : (missingIssues r.contract.name r.file r.sources.missing).filter q = [] := by
    apply List.filter_eq_nil_iff.mpr
    intro i hi hqi
    exact (hq i hqi).1 (rule_of_mem_missingIssues hi)
  have hresolution : r.resolution.issues.filter q = [] := by
    apply List.filter_eq_nil_iff.mpr
    intro i hi hqi
    obtain ⟨key, locale, path, tag, declared, rfl⟩ := r.exists_shadowedTag_of_mem hi
    exact (hq _ hqi).2 rfl
  rw [reported, issues, List.filter_append, List.filter_append, hmissing, hresolution, List.nil_append,
    List.nil_append]

/-- Without the missing sources of its file, the issues of a contract are left. -/
theorem filter_reported (r : ContractRun s loader) :
    (r.reported.filter fun i => i.rule ≠ .missingSource) = r.issues := by
  have hmissing : ((missingIssues r.contract.name r.file r.sources.missing).filter fun i =>
      i.rule ≠ .missingSource) = [] := by
    apply List.filter_eq_nil_iff.mpr
    intro i hi
    simp [rule_of_mem_missingIssues hi]
  have hissues : (r.issues.filter fun i => i.rule ≠ .missingSource) = r.issues := by
    apply List.filter_eq_self.mpr
    intro i hi
    simpa using r.rule_of_mem_issues hi
  rw [reported, List.filter_append, hmissing, hissues, List.nil_append]

end ContractRun

/-! ## §4 Runs -/

/-- A progress has kept the files, issues and sources of the runs that it has behind it. -/
structure Progress.Follows (p : Progress) (done : List (ContractRun s loader)) : Prop where
  loaded : ∀ file, p.loaded.contains file = true ↔ file ∈ done.map (·.file)
  issues : p.issues = issuesTogether [] (done.map fun r => (r.file, r.reported))
  /-- Each source was counted once. -/
  sourceFiles : p.sourceFiles = (foundSources loader (done.map (·.file)) s.locales).card

theorem Progress.follows_start : Progress.start.Follows ([] : List (ContractRun s loader)) where
  loaded := fun file => by simp [Progress.start, KeyMap.contains]
  issues := rfl
  sourceFiles := by simp [Progress.start, foundSources]

theorem Progress.Follows.after (hnodup : s.locales.Nodup) {p : Progress} {done : List (ContractRun s loader)}
    (hp : p.Follows done) (r : ContractRun s loader) : (p.after r).Follows (done ++ [r]) := by
  have hfiles : ((done.map fun r => (r.file, r.reported)).map (·.1)) = done.map (·.file) := by
    rw [List.map_map]
    rfl
  have hkept := hp.loaded r.file
  cases hget : p.loaded.get? r.file with
  | some kept =>
    -- The file is one that was loaded before: nothing is loaded, counted or told of it again.
    have hold : r.file ∈ done.map (·.file) := hkept.mp (KeyMap.contains_iff.mpr ⟨kept, hget⟩)
    have hsame : ∀ file, file ∈ (done ++ [r]).map (·.file) ↔ file ∈ done.map (·.file) := by
      intro file
      rw [List.map_append, List.map_singleton, List.mem_append, List.mem_singleton, or_iff_left_iff_imp]
      rintro rfl
      exact hold
    refine ⟨fun file => ?_, ?_, ?_⟩
    · simp only [Progress.after, hget]
      rw [hsame]
      exact hp.loaded file
    · rw [List.map_append, List.map_singleton, issuesTogether_concat, hfiles, List.nil_append, if_pos hold,
        r.filter_reported, ← hp.issues]
      simp only [Progress.after, hget]
    · rw [foundSources_congr hsame, ← hp.sourceFiles]
      simp only [Progress.after, hget]
  | none =>
    have hnew : r.file ∉ done.map (·.file) := by
      intro hmem
      obtain ⟨kept, hsome⟩ := KeyMap.contains_iff.mp (hkept.mpr hmem)
      rw [hget] at hsome
      cases hsome
    refine ⟨fun file => ?_, ?_, ?_⟩
    · simp only [Progress.after, hget, KeyMap.contains, KeyMap.get?_insert, List.map_append, List.map_singleton,
        List.mem_append, List.mem_singleton]
      rw [← hp.loaded file, KeyMap.contains]
      by_cases hfile : file = r.file
      · simp [hfile]
      · simp [hfile]
    · rw [List.map_append, List.map_singleton, issuesTogether_concat, hfiles, List.nil_append, if_neg hnew,
        ← hp.issues]
      simp only [Progress.after, hget, ContractRun.reported, List.append_assoc]
    · rw [List.map_append, List.map_singleton, card_foundSources_concat hnew,
        card_foundSources_singleton hnodup, ← r.sources_entries, ← hp.sourceFiles]
      simp only [Progress.after, hget]

/-- From the runs that a progress follows, it goes on to those that are added. -/
theorem Progress.Follows.foldl (hnodup : s.locales.Nodup) {p : Progress} {done : List (ContractRun s loader)}
    (hp : p.Follows done) (runs : List (ContractRun s loader)) :
    (runs.foldl Progress.after p).Follows (done ++ runs) := by
  induction runs generalizing p done with
  | nil =>
    rw [List.append_nil]
    exact hp
  | cons r runs ih =>
    rw [List.foldl_cons, List.append_cons]
    exact ih (hp.after hnodup r)

theorem locales_nodup_of_validate (h : s.validate = .ok ()) : s.locales.Nodup :=
  List.Nodup.of_map _ (Settings.validate_eq_ok_iff.mp h).2.1

/-- What a compilation yields of the runs of its contracts. -/
def outputOf (runs : List (ContractRun s loader)) : CompileOutput where
  settings := s
  tables := runs.map (·.table)
  issues := issuesTogether [] (runs.map fun r => (r.file, r.reported))
  sourceFiles := (foundSources loader (runs.map (·.file)) s.locales).card

/-- **Output**: a compilation succeeds exactly when the settings are valid, the contracts have distinct modules and
names and each can be compiled, and it yields what its runs do. -/
theorem compile_eq_ok_iff_outputOf {cs : List Contract} {o : CompileOutput} :
    compile s cs loader = .ok o ↔
      (s.validate = .ok () ∧ checkModules cs = .ok () ∧ (cs.map (·.name)).Nodup) ∧
        ∃ runs : List (ContractRun s loader), runs.map (·.contract) = cs ∧ o = outputOf runs := by
  rw [compile_eq_ok_iff]
  refine and_congr_right fun hchecks => exists_congr fun runs => and_congr_right fun _ => ?_
  have hfollows := Progress.follows_start.foldl (locales_nodup_of_validate hchecks.1) runs
  rw [hfollows.issues, hfollows.sourceFiles]
  rfl

theorem exists_outputOf {cs : List Contract} {o : CompileOutput} (h : compile s cs loader = .ok o) :
    ∃ runs : List (ContractRun s loader), runs.map (·.contract) = cs ∧ o = outputOf runs ∧
      (runs.map fun r => r.contract.name).Nodup := by
  obtain ⟨⟨-, -, hnodup⟩, runs, rfl, rfl⟩ := compile_eq_ok_iff_outputOf.mp h
  refine ⟨runs, rfl, rfl, ?_⟩
  simpa only [List.map_map, Function.comp_def] using hnodup

/-! ## §5 Issues of one contract -/

/-- But for missing sources and shadowed tags, the issues of a contract are those of its assembly. -/
theorem filter_issues_outputOf {runs : List (ContractRun s loader)}
    (hnames : (runs.map fun r => r.contract.name).Nodup) {r : ContractRun s loader} (hr : r ∈ runs) {q : Issue → Bool}
    (hq : ∀ i, q i = true →
      (i.rule ≠ .missingSource ∧ i.rule ≠ .shadowedTag) ∧ i.contract? = some r.contract.name) :
    (outputOf runs).issues.filter q = r.assembly.issues.filter q := by
  have hreported : ((runs.map fun r => (r.file, r.reported)).flatMap (·.2)) = runs.flatMap ContractRun.reported :=
    List.flatMap_map ..
  rw [outputOf, filter_issuesTogether fun i hi => (hq i hi).1.1, hreported,
    ← r.filter_reported_eq_assembly fun i hi => (hq i hi).1]
  -- The other contracts have other names.
  refine filter_flatMap_of_nodup hnames hr fun r' _ i hi hqi => ?_
  exact Option.some.inj ((r'.contract_of_mem_reported hi).symm.trans (hq i hqi).2)

/-- A gap or an unknown placeholder of a contract is reported when its assembly reports it. -/
theorem mem_issues_outputOf_iff {runs : List (ContractRun s loader)}
    (hnames : (runs.map fun r => r.contract.name).Nodup) {r : ContractRun s loader} (hr : r ∈ runs) {i : Issue}
    (hrule : i.rule ≠ .missingSource ∧ i.rule ≠ .shadowedTag) (hcontract : i.contract? = some r.contract.name) :
    i ∈ (outputOf runs).issues ↔ i ∈ r.assembly.issues := by
  have hfilter : (outputOf runs).issues.filter (fun j => j = i) = r.assembly.issues.filter fun j => j = i := by
    refine filter_issues_outputOf hnames hr fun j hj => ?_
    obtain rfl : j = i := by simpa using hj
    exact ⟨hrule, hcontract⟩
  have hmem : i ∈ (outputOf runs).issues.filter (fun j => j = i) ↔
      i ∈ r.assembly.issues.filter fun j => j = i := by
    rw [hfilter]
  simpa [List.mem_filter] using hmem

end Compile

end Phrasebook
