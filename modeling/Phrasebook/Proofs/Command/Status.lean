import Phrasebook.Proofs.Command.Effects
import Phrasebook.Proofs.Compile.Gaps
import Phrasebook.Proofs.Report

/-!
# The status tells what is missing

The status of a check is that of the issues it reports, and the only issues that are errors are a compilation that
failed and a declared key that no source has. So the status can be told from the files of a project.

## Layers

- `Compile.exists_error_iff`: which compilations report an error.
- `Project.Fails`: what a project lacks, as a fact about its methods and sources.
- `Project.TellsTruth`: what the result of a command has to say of a project.
- `check_tells_truth`: the commands that compile a project to report on it.
-/

namespace Phrasebook

open Disk

/-! ## §1 Errors of a compilation -/

namespace Compile

variable {s : Settings} {loader : SourceLoader}

/-- Of a contract, only templates that are missing are errors. -/
theorem ContractRun.exists_missingTemplate_of_error (r : ContractRun s loader) {i : Issue} (h : i ∈ r.reported)
    (herror : i.severity = .error) :
    i ∈ r.assembly.issues ∧ ∃ file key, i = .missingTemplate r.contract.name file key := by
  -- Missing sources and shadowed tags are warnings, so the error is one of the assembly.
  rcases List.mem_append.mp h with hmissing | hissues
  · obtain ⟨m, -, rfl⟩ := List.mem_map.mp hmissing
    cases herror
  · rcases List.mem_append.mp hissues with hresolution | hassembly
    · obtain ⟨key, locale, path, tag, declared, rfl⟩ := r.exists_shadowedTag_of_mem hresolution
      cases herror
    · refine ⟨hassembly, ?_⟩
      cases i with
      | missingTemplate contract file key =>
        have hcontract := Assembly.contract_of_mem_issues hassembly
        obtain rfl : contract = r.contract.name := Option.some.inj hcontract
        exact ⟨file, key, rfl⟩
      | buildFailure code message => exact absurd rfl (Assembly.rule_of_mem_issues hassembly).2.2
      | _ => cases herror

/-- A compilation reports an error exactly when a method declares a key that no locale has. -/
theorem exists_error_iff {cs : List Contract} {o : CompileOutput} (h : compile s cs loader = .ok o) :
    (∃ i ∈ o.issues, i.severity = .error) ↔
      ∃ c ∈ cs, ∃ m ∈ c.methods, ∀ locale ∈ s.locales,
        phraseAt? loader (c.fileName s.package) m.keyName locale = none := by
  obtain ⟨runs, rfl, rfl, hnames⟩ := exists_outputOf h
  refine ⟨fun herror => ?_, fun hundefined => ?_⟩
  · obtain ⟨i, hi, herror⟩ := herror
    obtain ⟨x, hx, hreported⟩ := exists_of_mem_issuesTogether hi
    obtain ⟨r, hr, rfl⟩ := List.mem_map.mp hx
    -- An error of a compilation is a template that is missing.
    obtain ⟨hassembly, file, key, rfl⟩ := r.exists_missingTemplate_of_error hreported herror
    -- The key of the issue is one of the table, and as no locale has it, a method declares it.
    obtain ⟨-, -, hschema, -⟩ := Assembly.missingTemplate_mem_iff.mp hassembly
    have hkey : r.table.accessors.contains key = true := by
      rw [KeyMap.contains, r.get?_accessors, Option.isSome_map]
      exact hschema
    obtain ⟨a, ha⟩ := KeyMap.contains_iff.mp hkey
    have hnone := (exists_missingTemplate_iff hnames hr ha).mp ⟨file, hi⟩
    rcases r.contains_iff_phrase.mp hkey with ⟨m, hm, rfl⟩ | ⟨locale, hlocale, hsome⟩
    · exact ⟨r.contract, List.mem_map_of_mem hr, m, hm, hnone⟩
    · rw [hnone locale hlocale] at hsome
      cases hsome
  · obtain ⟨c, hc, m, hm, hnone⟩ := hundefined
    obtain ⟨r, hr, rfl⟩ := List.mem_map.mp hc
    obtain ⟨a, ha⟩ := KeyMap.contains_iff.mp (r.contains_iff_phrase.mpr (.inl ⟨m, hm, rfl⟩))
    obtain ⟨file, hissue⟩ := (exists_missingTemplate_iff hnames hr ha).mpr hnone
    exact ⟨_, hissue, rfl⟩

end Compile

/-! ## §2 What a project lacks -/

namespace Project

/-- A key that no source of the file of a contract has, in any configured locale; no source has the empty key. -/
def Undefined (p : Project) (d : Disk) (c : Contract) (key : String) : Prop :=
  key = "" ∨ ∀ locale ∈ p.config.locales,
    Compile.textAt? (p.sourceOn d) (c.fileName p.config.package) key locale = none

/-- A project that cannot be compiled, or of which a method declares an undefined key. -/
def Fails (p : Project) (d : Disk) : Prop :=
  (∃ e, p.compiled d = .error e) ∨ ∃ c ∈ p.contracts, ∃ m ∈ c.methods, p.Undefined d c m.keyName

/-- The issues of a compilation of a project. -/
def issuesOn (p : Project) (d : Disk) : List Issue :=
  match p.compiled d with
  | .error e => [.ofError e]
  | .ok o => o.issues

/-- The log of a compilation of a project; one that fails says nothing there of what was found. -/
def logOn (p : Project) (d : Disk) : List LogRecord :=
  match p.compiled d with
  | .error _ => []
  | .ok o => o.issues.map Issue.logRecord

/-- What a compilation has of a key is what the disk has. -/
theorem forall_phraseAt?_eq_none_iff (p : Project) (d : Disk) {c : Contract} (hc : c ∈ p.contracts) (key : String) :
    (∀ locale ∈ p.config.locales, Compile.phraseAt? (p.loader (readSources Disk.access p.sourcePaths d).1)
        (c.fileName p.config.package) key locale = none) ↔ p.Undefined d c key := by
  by_cases hkey : key = ""
  · simp [Undefined, hkey, Compile.phraseAt?_empty]
  · simp only [Undefined, hkey, false_or]
    refine forall₂_congr fun locale hlocale => ?_
    rw [Compile.phraseAt?_eq_textAt? _ _ hkey, Compile.textAt?, Compile.textAt?, p.loader_readSources d hc hlocale]

/-- A project fails exactly when one of its issues is an error. -/
theorem fails_iff {p : Project} {d : Disk} : p.Fails d ↔ ∃ i ∈ p.issuesOn d, i.severity = .error := by
  unfold Fails issuesOn
  cases hcompiled : p.compiled d with
  | error e => simp [Issue.ofError, Issue.severity]
  | ok o =>
    obtain ⟨s, hlocales, hpackage, hcompile⟩ := exists_compile_of_compiled hcompiled
    simp only [reduceCtorEq, exists_false, false_or, Compile.exists_error_iff hcompile, hlocales, hpackage]
    refine exists_congr fun c => and_congr_right fun hc => exists_congr fun m => and_congr_right fun _ => ?_
    exact (p.forall_phraseAt?_eq_none_iff d hc m.keyName).symm

end Project

/-! ## §3 What is told of it -/

namespace CommandResult

theorem status_eq_one_iff {r : CommandResult} : r.status = 1 ↔ 0 < r.errorCount := by
  unfold status
  split
  · simp [*]
  · simp [*]

theorem status_eq_zero_iff {r : CommandResult} : r.status = 0 ↔ ¬0 < r.errorCount := by
  unfold status
  split
  · simp [*]
  · simp [*]

end CommandResult

/-- A result whose status is 1 exactly when a project fails, and whose report has each issue of the project once and
counts them right. -/
structure TellsTruth (p : Project) (d : Disk) (r : CommandResult) : Prop where
  status_eq_one : r.status = 1 ↔ p.Fails d
  status_eq_zero : r.status = 0 ↔ ¬p.Fails d
  /-- Without issues, nothing is printed. Otherwise each issue has lines that tell it, and the numbers in the last line
  are those of the printed issues. -/
  report : ∃ (printed : List Issue) (last : StyledLine), printed.Perm (p.issuesOn d) ∧
    reportLines r.issues = (if printed = [] then [] else printed.flatMap Issue.lines ++ [last]) ∧
    (∀ i ∈ printed, i.ToldBy i.lines) ∧
    ∀ coloured, ∃ count, IssueCount.read? (last.written coloured) = some count ∧ count = .ofIssues printed ∧
      count.errors + count.warnings = printed.length ∧ (0 < count.errors ↔ r.status = 1)
  /-- In the log there is one record for each issue of a compilation, in the order of finding. -/
  log : r.log = p.logOn d

/-- The result of a command tells the truth when it has the issues of the project and nothing else went wrong. -/
theorem tellsTruth_of_perm {p : Project} {d : Disk} {r : CommandResult} (hissues : r.issues.Perm (p.issuesOn d))
    (hsummary : CommandResult.summaryErrors r.summary = 0) (hlog : r.log = p.logOn d) : TellsTruth p d r := by
  have hcount : 0 < r.errorCount ↔ p.Fails d := by
    rw [CommandResult.errorCount, hsummary, Nat.add_zero, IssueCount.errors_pos_iff, Project.fails_iff]
    simp only [hissues.mem_iff]
  have hsorted := (Issue.sorted_perm r.issues).trans hissues
  -- Sorting does not change what is counted, so the printed count and the status agree.
  have herrors : 0 < (IssueCount.ofIssues (Issue.sorted r.issues)).errors ↔ r.status = 1 := by
    rw [CommandResult.status_eq_one_iff, hcount, IssueCount.errors_pos_iff, Project.fails_iff]
    simp only [hsorted.mem_iff]
  refine ⟨?_, ?_, ⟨Issue.sorted r.issues, (IssueCount.ofIssues (Issue.sorted r.issues)).line, hsorted,
    reportLines_eq r.issues, fun i _ => i.toldBy_lines, fun coloured => ?_⟩, hlog⟩
  · rw [CommandResult.status_eq_one_iff, hcount]
  · rw [CommandResult.status_eq_zero_iff, hcount]
  · exact ⟨_, IssueCount.read?_written _ coloured, rfl, IssueCount.errors_add_warnings _, herrors⟩

/-! ## §4 Commands -/

namespace Command

/-- A result of a compilation with all its issues, and without errors of its own. -/
structure Reports (f : Except CompileError CompileOutput → CommandResult) : Prop where
  failed : ∀ e, ∃ summary, f (.error e) = .failed summary e ∧ CommandResult.summaryErrors summary = 0
  finished : ∀ o, ∃ summary, f (.ok o) = (CommandResult.finish summary o.issues).logging o ∧
    CommandResult.summaryErrors summary = 0

/-- The result of generating a module that is shown. -/
def shown : Except CompileError CompileOutput → CommandResult
  | .error e => .failed (.generate none none 0 0) e
  | .ok o =>
    (CommandResult.finish (.generate (some (moduleText o)) none o.tables.length (keyCount o.tables)) o.issues).logging o

theorem generated_none (result : Except CompileError CompileOutput) :
    generated Disk.access none result = pure (.ok (shown result)) := by
  cases result <;> rfl

theorem reports_checked : Reports checked := ⟨fun _ => ⟨_, rfl, rfl⟩, fun _ => ⟨_, rfl, rfl⟩⟩

theorem reports_shown : Reports shown := ⟨fun _ => ⟨_, rfl, rfl⟩, fun _ => ⟨_, rfl, rfl⟩⟩

section

variable {f : Except CompileError CompileOutput → CommandResult} (hf : Reports f) (p : Project) (d : Disk)

include hf

theorem Reports.issues_perm : (f (p.compiled d)).issues.Perm (p.issuesOn d) := by
  unfold Project.issuesOn
  cases p.compiled d with
  | error e =>
    obtain ⟨summary, hresult, -⟩ := hf.failed e
    rw [hresult]
    exact Issue.sorted_perm _
  | ok o =>
    obtain ⟨summary, hresult, -⟩ := hf.finished o
    rw [hresult]
    exact Issue.sorted_perm _

theorem Reports.tellsTruth : TellsTruth p d (f (p.compiled d)) := by
  have hperm := hf.issues_perm p d
  unfold Project.issuesOn at hperm
  cases hcompiled : p.compiled d with
  | error e =>
    obtain ⟨summary, hresult, hsummary⟩ := hf.failed e
    rw [hcompiled] at hperm
    refine tellsTruth_of_perm (by rwa [Project.issuesOn, hcompiled]) (by rwa [hresult]) ?_
    rw [hresult, Project.logOn, hcompiled]
    rfl
  | ok o =>
    obtain ⟨summary, hresult, hsummary⟩ := hf.finished o
    rw [hcompiled] at hperm
    refine tellsTruth_of_perm (by rwa [Project.issuesOn, hcompiled]) (by rwa [hresult]) ?_
    rw [hresult, Project.logOn, hcompiled]
    rfl

end

theorem output_checked (coloured : Bool) (result : Except CompileError CompileOutput) :
    ∃ contracts keys files, (checked result).output coloured =
      if (checked result).issues = [] then
        ⟨(successLine (successText contracts keys files)).written coloured, ""⟩
      else ⟨report coloured (checked result).issues, ""⟩ := by
  simp only [← List.isEmpty_iff]
  cases result with
  | error e => exact ⟨0, 0, 0, rfl⟩
  | ok o => exact ⟨o.tables.length, keyCount o.tables, o.sourceFiles, rfl⟩

theorem err_output_shown (coloured : Bool) (result : Except CompileError CompileOutput) :
    ((shown result).output coloured).err = report coloured (shown result).issues := by
  cases result <;> rfl

end Command

end Phrasebook
