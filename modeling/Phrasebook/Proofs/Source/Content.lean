import Phrasebook.Proofs.Source.TagLines

/-!
# What the rewriting of tags leaves alone

The rewriting looks for a tag where the value of a key begins, outside the block scalars that it knows. Where each tag
that it finds is one to be kept, and only there, a text stays as it is, with whatever stands in the middle of a line
or in a block scalar, and it is read as it is written.

A text that is rewritten may be read differently in more than its tags. An anchor hides a block scalar from the
rewriting, and a plain text means a number behind a tag of the application's own but not behind the tag that stood
between angle brackets.

## Layers

1. **One line**: a line is kept exactly when its tag is.
2. **Texts**: by induction on the lines, from the state in front of them.
3. **Reading**: what follows for the tree of a text.
-/

namespace Phrasebook.SourceTag

open Phrasebook.Text

variable {st : LineState} {l : Line} {content ls : List Line}

/-! ## §1 One line -/

/-- The tag that the rewriting finds on a line, if it finds one, is to be kept. -/
def Line.Settled (st : LineState) (l : Line) : Prop :=
  ∀ parent before w behind, TagFound st l parent before w behind → Kept ('!' :: w)

theorem rewriteLine_eq_self_iff : (rewriteLine st l).1 = l ↔ l.Settled st := by
  refine ⟨fun h parent before w behind hfound => ?_, fun h => ?_⟩
  · rw [hfound.rewriteLine_eq] at h
    have hbody : before ++ (normalizeToken? ('!' :: w)).getD ('!' :: w) ++ behind = l.body := congrArg Line.body h
    rw [← hfound.tagAt.append, List.append_cancel_right_eq, List.append_cancel_left_eq] at hbody
    rw [← normalizeToken?_eq_none_iff]
    -- A tag is not rewritten to itself.
    by_contra hsome
    obtain ⟨tag, htag⟩ := Option.ne_none_iff_exists'.mp hsome
    rw [htag, Option.getD_some] at hbody
    exact hsome (hbody ▸ normalizeToken?_idem htag)
  · rcases exists_tagFound st l with hkept | ⟨parent, before, w, behind, hfound⟩
    · exact hkept
    · rw [hfound.rewriteLine_eq, normalizeToken?_eq_none_iff.mpr (h _ _ _ _ hfound), Option.getD_none,
        hfound.tagAt.append]

/-! ## §2 Texts -/

/-- Lines on which every tag that the rewriting finds is to be kept. -/
inductive Settled : LineState → List Line → Prop where
  | nil {st : LineState} : Settled st []
  | cons {st : LineState} {l : Line} {ls : List Line} (hline : l.Settled st)
      (hrest : Settled (rewriteLine st l).2 ls) : Settled st (l :: ls)

theorem rewriteLines_eq_self_iff : rewriteLines st ls = ls ↔ Settled st ls := by
  induction ls generalizing st with
  | nil => exact iff_of_true rfl .nil
  | cons l ls ih =>
    rw [rewriteLines, List.cons.injEq, rewriteLine_eq_self_iff, ih]
    refine ⟨fun h => .cons h.1 h.2, fun h => ?_⟩
    cases h with
    | cons hline hrest => exact ⟨hline, hrest⟩

/-- Behind the key of a block scalar, the lines of its text may be any. -/
theorem Settled.block (hline : l.Settled st) (hopens : opensBlock l.body = true)
    (hcontent : ∀ m ∈ content, m.Within l.indent) (hrest : Settled (rewriteLine st l).2 ls) :
    Settled st (l :: (content ++ ls)) := by
  rw [← rewriteLines_eq_self_iff, rewriteLines, rewriteLine_eq_self_iff.mpr hline,
    rewriteLines_inBlock fun m hm => inBlock_behind_key hopens st (hcontent m hm), rewriteLines_eq_self_iff.mpr hrest]

theorem normalizeTags_eq_self_iff {text : String} :
    normalizeTags text.toList = text.toList ↔ Settled .start (linesIn text) := by
  rw [← rewriteLines_eq_self_iff, ← linesIn_retagged]
  refine ⟨fun h => ?_, fun h => ?_⟩
  · rw [retagged, h, String.ofList_toList]
  · have hchars := congrArg (fun lines => lines.flatMap Line.chars) h
    simp only [flatMap_chars_linesIn] at hchars
    rwa [retagged, String.toList_ofList] at hchars

/-! ## §3 Reading -/

/-- **Content**: a text in which every tag that the rewriting finds is to be kept is read as it is written, whatever its
keys hold in block scalars and in the middle of lines. -/
theorem readYaml_of_settled {text : String} (h : Settled .start (linesIn text)) :
    SourceTree.readYaml text = SourceTree.readAsWritten text :=
  SourceTree.readYaml_eq_readAsWritten (normalizeTags_eq_self_iff.mpr h)

theorem readYaml_of_settled_block :
    Settled .start (linesIn "k: |\n  x: !a,b\nn: !a%2Cb see !a,b\n") ∧
    SourceTree.readYaml "k: |\n  x: !a,b\nn: !a%2Cb see !a,b\n"
      = SourceTree.readAsWritten "k: |\n  x: !a,b\nn: !a%2Cb see !a,b\n" := by
  have hlines : linesIn "k: |\n  x: !a,b\nn: !a%2Cb see !a,b\n" = ⟨0, "k: |".toList, ['\n']⟩ ::
      ([⟨2, "x: !a,b".toList, ['\n']⟩] ++ [⟨0, "n: !a%2Cb see !a,b".toList, ['\n']⟩]) := by decide +kernel
  have hsettled : Settled .start (linesIn "k: |\n  x: !a,b\nn: !a%2Cb see !a,b\n") := by
    rw [hlines]
    refine .block (rewriteLine_eq_self_iff.mp rfl) (by decide) (fun m hm => ?_)
      (.cons (rewriteLine_eq_self_iff.mp (by decide +kernel)) .nil)
    obtain rfl := List.mem_singleton.mp hm
    exact .inr Nat.zero_lt_two
  exact ⟨hsettled, readYaml_of_settled hsettled⟩

/-- An anchor in front of the indicator hides a block scalar from the rewriting, and a text like a tag in it is
rewritten: what is shown is not what is written. -/
theorem readYaml_anchored_block :
    SourceTree.readAsWritten "k: &a |\n  x: !a,b\n" = .ok (.entry ⟨"x: !a,b\n", none⟩) ∧
    SourceTree.readYaml "k: &a |\n  x: !a,b\n" = .ok (.entry ⟨"x: !a%2Cb\n", none⟩) := by
  have hrewritten : normalizeTags "k: &a |\n  x: !a,b\n".toList = "k: &a |\n  x: !a%2Cb\n".toList := by decide +kernel
  have hblank : allBlank "k: &a |\n  x: !a,b\n" = false := by decide +kernel
  -- Both readings meet the same tokens but for the text.
  have hread : ∀ s shown : String, Yaml.tokens? s.toList = some [.blockMappingStart, .key, .scalar ['k'] true, .value,
      .anchor ['a'], .scalar shown.toList false, .blockEnd, .streamEnd] →
      SourceTree.readDocument s.toList = .ok (.entry ⟨shown, none⟩) := by
    intro s shown htokens
    refine SourceTree.readDocument_entry ⟨some ['a'], none⟩ shown.toList false ?_ rfl ?_
    · rw [htokens]
      rfl
    · rw [String.ofList_toList]
      rfl
  constructor
  · rw [SourceTree.readAsWritten_eq_readDocument hblank]
    exact hread _ _ (by decide +kernel)
  · rw [SourceTree.readYaml_eq_readDocument hblank, hrewritten]
    exact hread _ _ (by decide +kernel)

/-- A tag between angle brackets is rewritten to one of the application's own, behind which a plain text may mean a
number: the text that is shown is not the one that is written. -/
theorem readYaml_bracketed_number :
    SourceTree.readAsWritten "k: !<x> 0x10\n" = .ok (.entry ⟨"0x10", none⟩) ∧
    SourceTree.readYaml "k: !<x> 0x10\n" = .ok (.entry ⟨"16", some "x"⟩) := by
  have hrewritten : normalizeTags "k: !<x> 0x10\n".toList = "k: !x 0x10\n".toList := by decide +kernel
  have hblank : allBlank "k: !<x> 0x10\n" = false := by decide +kernel
  constructor
  · have htokens : Yaml.tokens? "k: !<x> 0x10\n".toList = some [.blockMappingStart, .key, .scalar ['k'] true, .value,
        .tag [] [some 'x'], .scalar "0x10".toList true, .blockEnd, .streamEnd] := by decide +kernel
    rw [SourceTree.readAsWritten_eq_readDocument hblank]
    exact SourceTree.readDocument_entry ⟨none, some [some 'x']⟩ _ true (by rw [htokens]; rfl) rfl rfl
  · have htokens : Yaml.tokens? "k: !x 0x10\n".toList = some [.blockMappingStart, .key, .scalar ['k'] true, .value,
        .tag ['!'] [some 'x'], .scalar "0x10".toList true, .blockEnd, .streamEnd] := by decide +kernel
    rw [SourceTree.readYaml_eq_readDocument hblank, hrewritten, SourceTree.readDocument, Yaml.Value.read?, htokens]
    rfl

end Phrasebook.SourceTag
