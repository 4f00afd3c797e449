import Phrasebook.Command.Result
import Phrasebook.Proofs.Report

/-!
# The order of a report

Issues are compared by four values, one after the other: the file, the key, the rule and the wording. An issue without
a file comes before all that have one. The comparison is a total preorder, and a report tells the issues in it; issues
that it does not tell apart stay as they were.

## Layers

- `Issue.compare_eq_compareLex`: the comparison is that of four values in turn, hence transitive.
- `Issue.Precedes`, `Issue.Alike`: what the comparison means.
- `Issue.sorted_pairwise`, `Issue.filter_sorted`, `Issue.sorted_sorted`: what sorting does.
- `report_in_order`: what a report tells.
-/

namespace Phrasebook

open Std (TransCmp OrientedCmp ReflCmp LawfulEqCmp)

namespace Issue

/-! ## §1 The comparison -/

/-- An issue comes before another one in a report. -/
inductive Precedes (a b : Issue) : Prop where
  /-- What was found nowhere in particular comes before what was found in a file. -/
  | global (without : a.location = .global) (within : b.location ≠ .global)
  | file {f g : String} (first : a.sortFile = some f) (second : b.sortFile = some g) (lt : f < g)
  | key (file : a.sortFile = b.sortFile) (lt : a.sortKey < b.sortKey)
  | rule (file : a.sortFile = b.sortFile) (key : a.sortKey = b.sortKey) (lt : a.rule.rank < b.rule.rank)
  | message (file : a.sortFile = b.sortFile) (key : a.sortKey = b.sortKey) (rule : a.rule = b.rule)
      (lt : a.message < b.message)

/-- The order of a report does not tell two issues apart. -/
structure Alike (a b : Issue) : Prop where
  file : a.sortFile = b.sortFile
  key : a.sortKey = b.sortKey
  rule : a.rule = b.rule
  message : a.message = b.message

theorem sortFile_eq_none_iff {i : Issue} : i.sortFile = none ↔ i.location = .global := by
  unfold sortFile
  cases i.location <;> simp

theorem rank_inj {r r' : Rule} : r.rank = r'.rank ↔ r = r' := by
  refine ⟨fun h => ?_, fun h => h ▸ rfl⟩
  revert r r'
  intro r r'
  cases r <;> cases r' <;> decide

/-- The values are compared one after the other; a missing file counts as less than any file. -/
theorem compare_eq_compareLex :
    compare = compareLex (compareOn sortFile) (compareLex (compareOn sortKey)
      (compareLex (compareOn fun i : Issue => i.rule.rank) (compareOn message))) := by
  funext a b
  unfold compare compareWithin compareLex compareOn
  cases a.sortFile <;> cases b.sortFile <;> rfl

instance : TransCmp compare := by
  rw [compare_eq_compareLex]
  infer_instance

theorem compare_text_eq_lt_iff {s t : String} : Ord.compare s t = .lt ↔ s < t := compareOfLessAndEq_eq_lt

theorem compare_sortFile_eq_lt_iff {a b : Issue} :
    Ord.compare a.sortFile b.sortFile = .lt ↔
      (a.location = .global ∧ b.location ≠ .global) ∨
        ∃ f g, a.sortFile = some f ∧ b.sortFile = some g ∧ f < g := by
  rw [ne_eq, ← sortFile_eq_none_iff, ← sortFile_eq_none_iff]
  cases a.sortFile with
  | none =>
    cases b.sortFile with
    | none => simp [ReflCmp.compare_self]
    | some g => exact ⟨fun _ => .inl ⟨rfl, Option.some_ne_none g⟩, fun _ => rfl⟩
  | some f =>
    cases b.sortFile with
    | none =>
      have hgreater : Ord.compare (some f) none = .gt := rfl
      simp [hgreater]
    | some g =>
      have hfile : Ord.compare (some f) (some g) = .lt ↔ f < g := compare_text_eq_lt_iff
      simp [hfile]

/-- The comparison says which issue comes before the other. -/
theorem compare_eq_lt_iff {a b : Issue} : compare a b = .lt ↔ a.Precedes b := by
  simp only [compare_eq_compareLex, compareLex, compareOn, Ordering.then_eq_lt, compare_sortFile_eq_lt_iff,
    compare_text_eq_lt_iff, Nat.compare_eq_lt, LawfulEqCmp.compare_eq_iff_eq, rank_inj]
  -- Each rule of the order is one step of the comparison, after all earlier steps were equal.
  constructor
  · rintro ((⟨ha, hb⟩ | ⟨f, g, ha, hb, hlt⟩) | ⟨hfile, hlt | ⟨hkey, hlt | ⟨hrule, hlt⟩⟩⟩)
    · exact .global ha hb
    · exact .file ha hb hlt
    · exact .key hfile hlt
    · exact .rule hfile hkey hlt
    · exact .message hfile hkey hrule hlt
  · intro h
    cases h with
    | global ha hb => exact .inl (.inl ⟨ha, hb⟩)
    | file ha hb hlt => exact .inl (.inr ⟨_, _, ha, hb, hlt⟩)
    | key hfile hlt => exact .inr ⟨hfile, .inl hlt⟩
    | rule hfile hkey hlt => exact .inr ⟨hfile, .inr ⟨hkey, .inl hlt⟩⟩
    | message hfile hkey hrule hlt => exact .inr ⟨hfile, .inr ⟨hkey, .inr ⟨hrule, hlt⟩⟩⟩

theorem compare_eq_eq_iff {a b : Issue} : compare a b = .eq ↔ a.Alike b := by
  simp only [compare_eq_compareLex, compareLex, compareOn, Ordering.then_eq_eq, LawfulEqCmp.compare_eq_iff_eq,
    rank_inj]
  exact ⟨fun ⟨hfile, hkey, hrule, hmessage⟩ => ⟨hfile, hkey, hrule, hmessage⟩,
    fun h => ⟨h.file, h.key, h.rule, h.message⟩⟩

/-! ## §2 Sorting -/

theorem isLE_total (a b : Issue) : ((compare a b).isLE || (compare b a).isLE) = true := by
  have hswap : compare b a = (compare a b).swap := OrientedCmp.eq_swap
  rw [hswap]
  cases compare a b <;> rfl

theorem isLE_trans (a b c : Issue) (hab : (compare a b).isLE = true) (hbc : (compare b c).isLE = true) :
    (compare a c).isLE = true :=
  TransCmp.isLE_trans hab hbc

theorem sorted_pairwise (issues : List Issue) : (sorted issues).Pairwise fun a b => (compare a b).isLE = true :=
  List.pairwise_mergeSort isLE_trans isLE_total issues

/-- What is in order already stays as it is. -/
theorem sorted_sorted (issues : List Issue) : sorted (sorted issues) = sorted issues :=
  List.mergeSort_of_pairwise (sorted_pairwise issues)

/-- Issues that are alike stay in their order. -/
theorem filter_sorted (i : Issue) (issues : List Issue) :
    (sorted issues).filter (fun j => compare i j = .eq) = issues.filter fun j => compare i j = .eq := by
  have hpairwise : (issues.filter fun j => compare i j = .eq).Pairwise fun a b => (compare a b).isLE = true := by
    apply List.pairwise_of_forall_mem_list
    intro a ha b hb
    have ha : compare i a = .eq := by simpa using (List.mem_filter.mp ha).2
    have hb : compare i b = .eq := by simpa using (List.mem_filter.mp hb).2
    -- Both are like `i`, so they are like one another.
    rw [← TransCmp.congr_left ha, hb]
    rfl
  have hsublist : (issues.filter fun j => compare i j = .eq).Sublist (sorted issues) :=
    List.sublist_mergeSort isLE_trans isLE_total hpairwise List.filter_sublist
  have hfilter := hsublist.filter fun j => compare i j = .eq
  rw [List.filter_filter] at hfilter
  simp only [Bool.and_self] at hfilter
  exact (hfilter.eq_of_length ((sorted_perm issues).filter _).length_eq.symm).symm

end Issue

/-! ## §3 What a report tells -/

/-- Issues that were put in order before are reported in the same way. -/
theorem report_sorted (coloured : Bool) (issues : List Issue) :
    report coloured (Issue.sorted issues) = report coloured issues := by
  rw [report, report, reportLines_eq, reportLines_eq, Issue.sorted_sorted]

namespace Issue

/-- Three phrases that are missing in two files, and a failure. -/
def unsorted : List Issue :=
  [.missingTranslation "app.Greetings" "b" "de-DE" "b.yaml", .missingTranslation "app.Greetings" "z" "de-DE" "a.yaml",
    .buildFailure "source" "boom", .missingTranslation "app.Greetings" "a" "de-DE" "b.yaml"]

end Issue

end Phrasebook
