import Phrasebook.Proofs.Compile.Issues
import Mathlib.Data.Set.List

/-!
# Contracts compiled apart

To compile contracts together is to compile each of them apart, but for what they share: names and modules must not
meet, and a file of several contracts is loaded, told and counted once.

- `checkModules_eq_ok_iff`: contracts of distinct names pass the check of modules exactly when these are distinct.
- `compile_singleton_eq_ok_iff`: one contract is compiled when it has a run.
- `compile_apart`: the two ways to compile succeed together and agree.
-/

namespace Phrasebook

open Phrasebook.Name

namespace Compile

variable {s : Settings} {loader : SourceLoader}

/-! ## §1 Checks -/

theorem checkModules_eq_ok_iff {cs : List Contract} (h : (cs.map (·.name)).Nodup) :
    checkModules cs = .ok () ↔ (cs.map fun c => ofContract c.name).Nodup := by
  have hmodules : (cs.map fun c => ofContract c.name) = (cs.map (·.name)).map ofContract := by
    simp only [List.map_map, Function.comp_def]
  rw [hmodules, ← firstCollision?_eq_none_iff, checkModules]
  cases hfirst : firstCollision? ofContract (cs.map (·.name)) with
  | none => simp
  | some c =>
    -- The two names of a collision stand at different places, so here they differ.
    have hne : c.first ≠ c.second := by
      have hpair := h.sublist (of_firstCollision? hfirst).1
      simpa using hpair
    simp [hne]

/-! ## §2 Single contracts -/

theorem compile_singleton_eq_ok_iff {c : Contract} {o : CompileOutput} :
    compile s [c] loader = .ok o ↔
      s.validate = .ok () ∧ ∃ r : ContractRun s loader, r.contract = c ∧ o = outputOf [r] := by
  have hname : ([c].map (·.name)).Nodup := List.nodup_singleton _
  have hmodule : checkModules [c] = .ok () := (checkModules_eq_ok_iff hname).mpr (List.nodup_singleton _)
  simp only [compile_eq_ok_iff_outputOf, hname, hmodule, and_true]
  refine and_congr_right fun _ => ⟨fun h => ?_, fun h => ?_⟩
  · obtain ⟨runs, hruns, rfl⟩ := h
    obtain ⟨r, rs, rfl, hr, hrs⟩ := List.map_eq_cons_iff.mp hruns
    obtain rfl := List.map_eq_nil_iff.mp hrs
    exact ⟨r, hr, rfl⟩
  · obtain ⟨r, hr, rfl⟩ := h
    exact ⟨[r], congrArg (fun c => [c]) hr, rfl⟩

theorem issues_outputOf_singleton (r : ContractRun s loader) : (outputOf [r]).issues = r.reported := by
  simp [outputOf, issuesTogether]

/-- Contracts have runs when each of them has one. -/
theorem exists_runs_iff {cs : List Contract} :
    (∃ runs : List (ContractRun s loader), runs.map (·.contract) = cs) ↔
      ∀ c ∈ cs, ∃ r : ContractRun s loader, r.contract = c := by
  have hrange := Set.range_list_map (ContractRun.contract : ContractRun s loader → Contract)
  exact Set.ext_iff.mp hrange cs

/-! ## §3 All contracts -/

/-- **Separate compilation**: contracts are compiled together exactly when the settings are valid, their names and
modules are distinct, and each is compiled apart. The tables are those of the contracts apart, the issues are theirs
without the missing sources of files that an earlier contract has, and each source of a file is counted once. -/
theorem compile_apart (s : Settings) (cs : List Contract) (loader : SourceLoader) :
    ((∃ o, compile s cs loader = .ok o) ↔
      s.validate = .ok () ∧ (cs.map (·.name)).Nodup ∧ (cs.map fun c => ofContract c.name).Nodup ∧
        ∀ c ∈ cs, ∃ o, compile s [c] loader = .ok o) ∧
    ∀ o, compile s cs loader = .ok o → ∃ apart : List CompileOutput,
      List.Forall₂ (fun c o' => compile s [c] loader = .ok o') cs apart ∧
      List.Forall₂ (fun t o' => o'.tables = [t]) o.tables apart ∧
      o.issues = issuesTogether [] ((cs.zip apart).map fun x => (x.1.fileName s.package, x.2.issues)) ∧
      o.sourceFiles = (foundSources loader (cs.map fun c => c.fileName s.package) s.locales).card := by
  simp only [compile_singleton_eq_ok_iff]
  simp only [compile_eq_ok_iff_outputOf]
  refine ⟨⟨fun h => ?_, fun h => ?_⟩, fun o h => ?_⟩
  · obtain ⟨o, ⟨hvalid, hmodules, hnames⟩, runs, hruns, -⟩ := h
    refine ⟨hvalid, hnames, (checkModules_eq_ok_iff hnames).mp hmodules, fun c hc => ?_⟩
    obtain ⟨r, hr⟩ := exists_runs_iff.mp ⟨runs, hruns⟩ c hc
    exact ⟨outputOf [r], hvalid, r, hr, rfl⟩
  · obtain ⟨hvalid, hnames, hmodules, hall⟩ := h
    have heach : ∀ c ∈ cs, ∃ r : ContractRun s loader, r.contract = c := by
      intro c hc
      obtain ⟨-, -, r, hr, -⟩ := hall c hc
      exact ⟨r, hr⟩
    obtain ⟨runs, hruns⟩ := exists_runs_iff.mpr heach
    exact ⟨outputOf runs, ⟨hvalid, (checkModules_eq_ok_iff hnames).mpr hmodules, hnames⟩, runs, hruns, rfl⟩
  · -- Apart, each contract has the run that it has among the others.
    obtain ⟨⟨hvalid, -, -⟩, runs, rfl, rfl⟩ := h
    refine ⟨runs.map fun r => outputOf [r], ?_, ?_, ?_, ?_⟩
    · rw [forall₂_map_same_iff]
      intro r _
      exact ⟨hvalid, r, rfl, rfl⟩
    · show List.Forall₂ _ (runs.map (·.table)) _
      rw [forall₂_map_same_iff]
      intro r _
      rfl
    · rw [List.zip_map', List.map_map]
      simp only [Function.comp_def, issues_outputOf_singleton]
      rfl
    · rw [List.map_map]
      rfl

/-- A second contract of the same file gets a table of its own, but the file is loaded for the first one only. -/
theorem compile_apart_shared :
    ∃ o, compile Greetings.settings [Greetings.contract, Greetings.visitor] Greetings.sources = .ok o ∧
      o.tables.length = 2 ∧ o.sourceFiles = 2 := by
  obtain ⟨hsucceeds, hoften⟩ :=
    compile_apart Greetings.settings [Greetings.contract, Greetings.visitor] Greetings.sources
  obtain ⟨o, ho⟩ := hsucceeds.mpr ⟨rfl, by decide, by decide, by
    intro c hc
    rcases List.mem_cons.mp hc with rfl | hc
    · exact ⟨_, rfl⟩
    · obtain rfl := List.mem_singleton.mp hc
      exact ⟨_, rfl⟩⟩
  obtain ⟨apart, hall, htables, -, hcount⟩ := hoften o ho
  refine ⟨o, ho, ?_, ?_⟩
  · rw [htables.length_eq, ← hall.length_eq]
    rfl
  · rw [hcount]
    decide

end Compile

end Phrasebook
