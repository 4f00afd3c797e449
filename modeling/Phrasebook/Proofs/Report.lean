import Phrasebook.Report

/-!
# What a report says

A report has each issue once, in its order, and counts them. It begins with the severity of its first issue, so it is
never taken for the line that says that there is nothing to report.

- Lines tell an issue when its first line has its severity, its message and its code, and the others have all that it
  says.
- The numbers of the last line can be read back, whether or not it has styles.

## Layers

- `IssueCount.errors_add_warnings`, `IssueCount.errors_pos_iff`: what is counted.
- `Issue.ToldBy`, `Issue.toldBy_lines`: what the lines of an issue tell.
- `IssueCount.read?`, `IssueCount.read?_written`: what the last line says.
- `Issue.sorted_perm`, `reportLines_eq`: what is told.
- `report_ne_successLine`: how a report begins.
-/

namespace Phrasebook

/-! ## §1 Counting -/

namespace IssueCount

theorem errors_add_warnings (issues : List Issue) :
    (ofIssues issues).errors + (ofIssues issues).warnings = issues.length := by
  have hle : (issues.countP fun i => i.severity = .error) ≤ issues.length := List.countP_le_length
  simp only [ofIssues]
  omega

/-- There is an error among the issues exactly when one is counted. -/
theorem errors_pos_iff {issues : List Issue} : 0 < (ofIssues issues).errors ↔ ∃ i ∈ issues, i.severity = .error := by
  simp [ofIssues, List.countP_pos_iff]

theorem ofIssues_congr {issues issues' : List Issue} (h : issues.Perm issues') : ofIssues issues = ofIssues issues' := by
  simp only [ofIssues, h.countP_eq, h.length_eq]

end IssueCount

/-! ## §2 What lines tell -/

/-- The text of a line. -/
def StyledLine.text (l : StyledLine) : String := String.join (l.map (·.text))

/-- A line that has no styles is written as its text. -/
theorem StyledLine.written_false (l : StyledLine) : l.written false = l.text ++ "\n" := by
  have hspan : ∀ s : Span, s.written false = s.text := by
    intro s
    unfold Span.written
    cases s.style.parameters? <;> rfl
  rw [written, text, funext hspan]

namespace Issue

/-- Lines that tell an issue: first its severity, what it is about and its code, then where it was found, what is wrong
and what happens as things are. -/
structure ToldBy (i : Issue) (ls : List StyledLine) : Prop where
  /-- What an issue is about may stand in quotes. -/
  head : ∃ l q, ls.head? = some l ∧ (q = "" ∨ q = "\"") ∧
    l.text = i.severity.name ++ ": " ++ (q ++ i.message ++ q) ++ "  " ++ i.code
  file : ∀ path, i.sortFile = some path → ∃ l ∈ ls, l.text = "  --> " ++ path
  key : ∀ path key, i.location = .key path key → ∃ l ∈ ls, l.text = "   | " ++ key
  details : ∀ text, i.details = some text → ∃ l ∈ ls, l.text = "   = note: " ++ text
  hint : ∀ text, i.hint = some text → ∃ l ∈ ls, l.text = "   = hint: " ++ text
  /-- An empty line stands between an issue and the next one. -/
  last : ls.getLast? = some []

theorem text_headLine (i : Issue) : i.headLine.text = i.severity.name ++ ": " ++ i.headline ++ "  " ++ i.code := by
  simp [StyledLine.text, headLine, plainText, String.append_assoc]

theorem text_pathLine (path : String) : (pathLine path).text = "  --> " ++ path := by
  simp [StyledLine.text, pathLine, plainText, ← String.append_assoc]

theorem text_noteLine (style : Style) (label text : String) :
    (noteLine style label text).text = "   = " ++ label ++ " " ++ text := by
  simp [StyledLine.text, noteLine, plainText, ← String.append_assoc]

/-- **Told issues**: the lines of an issue tell it. -/
theorem toldBy_lines (i : Issue) : i.ToldBy i.lines where
  head := by
    -- A headline is quoted as a whole or not at all.
    have hheadline : ∃ q, (q = "" ∨ q = "\"") ∧ i.headline = q ++ i.message ++ q := by
      unfold headline
      split
      · exact ⟨"\"", .inr rfl, rfl⟩
      · exact ⟨"", .inl rfl, by simp⟩
    obtain ⟨q, hq, hquoted⟩ := hheadline
    exact ⟨i.headLine, q, rfl, hq, hquoted ▸ i.text_headLine⟩
  file := by
    intro path hpath
    have hline : pathLine path ∈ i.locationLines := by
      unfold sortFile at hpath
      unfold locationLines
      split at hpath <;> simp_all
    exact ⟨pathLine path, by simp [lines, hline], text_pathLine path⟩
  key := by
    intro path key hkey
    have hline : barLine [plainText (" " ++ key)] ∈ i.locationLines := by
      rw [locationLines, hkey]
      simp
    refine ⟨barLine [plainText (" " ++ key)], by simp [lines, hline], ?_⟩
    simp [StyledLine.text, barLine, plainText, ← String.append_assoc]
  details := by
    intro text htext
    exact ⟨noteLine .bold "note:" text, by simp [lines, htext], text_noteLine _ _ _⟩
  hint := by
    intro text htext
    exact ⟨noteLine .boldCyan "hint:" text, by simp [lines, htext], text_noteLine _ _ _⟩
  last := by rw [lines, List.getLast?_concat]

end Issue

/-! ## §3 The last line -/

/-- The characters that are left without the escape sequences, `escape` being whether one is open here. -/
def withoutStyles : Bool → List Char → List Char
  | _, [] => []
  | true, c :: cs => withoutStyles (c ≠ 'm') cs
  | false, c :: cs => if c = '\x1b' then withoutStyles true cs else c :: withoutStyles false cs

/-- The number that stands here in front of a blank, and what stands behind the blank. -/
def numberHere? (cs : List Char) : Option (Nat × List Char) :=
  let digits := cs.takeWhile Char.isDigit
  if digits.isEmpty then none
  else (Text.dropStart? [' '] (cs.dropWhile Char.isDigit)).map fun rest => (Nat.ofDigitChars 10 digits 0, rest)

/-- What stands behind a name, which has an ending for other than one thing. -/
def nameHere? (name : String) (cs : List Char) : Option (List Char) :=
  (Text.dropStart? name.toList cs).map fun cs => (Text.dropStart? ['s'] cs).getD cs

/-- The counts that a line says: the number of problems, how many of them are errors and how many are warnings. -/
def IssueCount.read? (line : String) : Option IssueCount := do
  let cs ← Text.dropStart? "✘ ".toList (withoutStyles false line.toList)
  let total ← numberHere? cs
  let cs ← nameHere? "problem" total.2
  let cs ← Text.dropStart? " (".toList cs
  let errors ← numberHere? cs
  let cs ← nameHere? "error" errors.2
  let cs ← Text.dropStart? ", ".toList cs
  let warnings ← numberHere? cs
  let cs ← nameHere? "warning" warnings.2
  if cs = ")\n".toList ∧ total.1 = errors.1 + warnings.1 then return ⟨errors.1, warnings.1⟩ else none

theorem withoutStyles_append {text : List Char} (h : '\x1b' ∉ text) (rest : List Char) :
    withoutStyles false (text ++ rest) = text ++ withoutStyles false rest := by
  induction text with
  | nil => rfl
  | cons c text ih =>
    rw [List.mem_cons, not_or] at h
    rw [List.cons_append, withoutStyles, if_neg (Ne.symm h.1), ih h.2, List.cons_append]

/-- An escape sequence is left out up to its end. -/
theorem withoutStyles_escape {parameters : List Char} (h : 'm' ∉ parameters) (rest : List Char) :
    withoutStyles false ('\x1b' :: (parameters ++ 'm' :: rest)) = withoutStyles false rest := by
  have hinside : withoutStyles true (parameters ++ 'm' :: rest) = withoutStyles false rest := by
    induction parameters with
    | nil => rfl
    | cons c parameters ih =>
      rw [List.mem_cons, not_or] at h
      rw [List.cons_append, withoutStyles, decide_eq_true (Ne.symm h.1), ih h.2]
  rw [withoutStyles, if_pos rfl, hinside]

/-- A part without escape sequences of its own is written with those of its style. -/
theorem withoutStyles_span (coloured : Bool) {s : Span} (h : '\x1b' ∉ s.text.toList) (rest : List Char) :
    withoutStyles false ((s.written coloured).toList ++ rest) = s.text.toList ++ withoutStyles false rest := by
  have hplain := withoutStyles_append h rest
  unfold Span.written
  cases hstyle : s.style.parameters? with
  | none => exact hplain
  | some parameters =>
    -- The parameters of a style are digits and semicolons, so its sequence ends with its own `m`.
    have hparameters : 'm' ∉ '[' :: parameters.toList := by
      revert hstyle
      cases s.style <;> simp [Style.parameters?] <;> rintro rfl <;> decide
    cases coloured with
    | false => exact hplain
    | true =>
      have hsequence : ("\x1b[" ++ parameters ++ "m" ++ s.text ++ "\x1b[0m").toList ++ rest
          = '\x1b' :: (('[' :: parameters.toList) ++ 'm' :: (s.text.toList ++ '\x1b' :: (['[', '0'] ++ 'm' :: rest))) := by
        simp
      refine (congrArg (withoutStyles false) hsequence).trans ?_
      rw [withoutStyles_escape hparameters, withoutStyles_append h, withoutStyles_escape (by decide)]

/-- A line whose parts have no escape sequences of their own is its text. -/
theorem withoutStyles_written (coloured : Bool) {l : StyledLine} (h : ∀ s ∈ l, '\x1b' ∉ s.text.toList) :
    withoutStyles false (l.written coloured).toList = l.text.toList ++ ['\n'] := by
  rw [StyledLine.written, StyledLine.text, String.toList_append, String.toList_join, String.toList_join]
  induction l with
  | nil => rfl
  | cons s l ih =>
    rw [List.map_cons, List.flatMap_cons, List.append_assoc, withoutStyles_span coloured (h s List.mem_cons_self),
      ih fun s' hs' => h s' (List.mem_cons_of_mem s hs'), List.map_cons, List.flatMap_cons, List.append_assoc]

theorem numberHere?_append (n : Nat) (rest : List Char) :
    numberHere? ((toString n).toList ++ ' ' :: rest) = some (n, rest) := by
  have hdigits : ∀ c ∈ Nat.toDigits 10 n, c.isDigit = true := fun c hc =>
    Nat.isDigit_of_mem_toDigits (by decide) (by decide) hc
  have hstop : (' ' :: rest).takeWhile Char.isDigit = [] ∧ (' ' :: rest).dropWhile Char.isDigit = ' ' :: rest :=
    ⟨rfl, rfl⟩
  have hsome : (Nat.toDigits 10 n).isEmpty = false := by simp [Nat.toDigits_ne_nil]
  rw [Nat.toString_eq_ofList_toDigits, String.toList_ofList, numberHere?, List.takeWhile_append_of_pos hdigits,
    List.dropWhile_append_of_pos hdigits, hstop.1, hstop.2, List.append_nil, hsome,
    Nat.ofDigitChars_toDigits (by decide) (by decide)]
  rfl

namespace IssueCount

/-- What stands behind a name is the same for one thing and for more. -/
theorem nameHere?_noun (n : Nat) {name names : String} (hnames : names = name ++ "s") {rest : List Char}
    (h : rest.head? ≠ some 's') : nameHere? name ((noun n name names).toList ++ rest) = some rest := by
  have hstop : (Text.dropStart? ['s'] rest).getD rest = rest := by
    cases rest with
    | nil => rfl
    | cons c cs =>
      have hc : ¬ 's' = c := fun heq => h (heq ▸ rfl)
      simp [Text.dropStart?, hc]
  unfold nameHere? noun
  split
  · rw [Text.dropStart?_append, Option.map_some, hstop]
  · rw [hnames, String.toList_append, List.append_assoc, Text.dropStart?_append]
    rfl

theorem text_line (n : IssueCount) : n.line.text.toList ++ ['\n']
    = "✘ ".toList ++ ((toString n.total).toList ++ ' ' :: ((noun n.total "problem" "problems").toList ++ (" (".toList ++
      ((toString n.errors).toList ++ ' ' :: ((noun n.errors "error" "errors").toList ++ (", ".toList ++
        ((toString n.warnings).toList ++ ' ' :: ((noun n.warnings "warning" "warnings").toList ++ ")\n".toList)))))))) := by
  simp [StyledLine.text, line, plainText, counted, noun]

/-- Numbers and names begin no escape sequence. -/
theorem escape_not_mem_line (n : IssueCount) : ∀ s ∈ n.line, '\x1b' ∉ s.text.toList := by
  -- Digits and the fixed words of the line have no escape character.
  have hnumber : ∀ m : Nat, '\x1b' ∉ (toString m).toList := by
    intro m hmem
    rw [Nat.toString_eq_ofList_toDigits, String.toList_ofList] at hmem
    exact absurd (Nat.isDigit_of_mem_toDigits (by decide) (by decide) hmem) (by decide)
  have hnoun : ∀ (m : Nat) (one many : String), '\x1b' ∉ one.toList ∧ '\x1b' ∉ many.toList →
      '\x1b' ∉ (noun m one many).toList := by
    intro m one many h
    unfold noun
    split
    · exact h.1
    · exact h.2
  have hproblems := hnoun n.total "problem" "problems" (by decide)
  have herrors := hnoun n.errors "error" "errors" (by decide)
  have hwarnings := hnoun n.warnings "warning" "warnings" (by decide)
  have hcounted : counted n.total "problem" "problems" = toString n.total ++ " " ++ noun n.total "problem" "problems" :=
    rfl
  simp only [line, hcounted, plainText, List.forall_mem_cons, String.toList_append, List.mem_append, not_or]
  refine ⟨by decide, ⟨⟨⟨⟨by decide, ⟨⟨hnumber _, by decide⟩, hproblems⟩⟩, by decide⟩, hnumber _⟩, by decide⟩, herrors,
    ⟨⟨by decide, hnumber _⟩, by decide⟩, hwarnings, by decide, by simp⟩

/-- **Counts**: the last line of a report says its counts. -/
theorem read?_written (n : IssueCount) (coloured : Bool) : read? (n.line.written coloured) = some n := by
  have hproblems := fun rest => @nameHere?_noun n.total "problem" "problems" rfl (" (".toList ++ rest) (by simp)
  have herrors := fun rest => @nameHere?_noun n.errors "error" "errors" rfl (", ".toList ++ rest) (by simp)
  have hwarnings := @nameHere?_noun n.warnings "warning" "warnings" rfl ")\n".toList (by simp)
  rw [read?, withoutStyles_written coloured n.escape_not_mem_line, text_line]
  simp only [Text.dropStart?_append, numberHere?_append, hproblems, herrors, hwarnings, Option.bind_eq_bind,
    Option.bind_some]
  exact if_pos ⟨trivial, rfl⟩

end IssueCount

/-! ## §4 Telling -/

theorem Issue.sorted_perm (issues : List Issue) : (sorted issues).Perm issues := List.mergeSort_perm issues _

theorem Issue.sorted_eq_nil_iff {issues : List Issue} : sorted issues = [] ↔ issues = [] := by
  rw [← List.length_eq_zero_iff, (sorted_perm issues).length_eq, List.length_eq_zero_iff]

/-- A report tells all issues in order, each once, and then how many they are. -/
theorem reportLines_eq (issues : List Issue) :
    reportLines issues = if Issue.sorted issues = [] then [] else
      (Issue.sorted issues).flatMap Issue.lines ++ [(IssueCount.ofIssues (Issue.sorted issues)).line] := by
  simp only [reportLines, List.isEmpty_iff, Issue.sorted_eq_nil_iff, IssueCount.ofIssues_congr (Issue.sorted_perm issues)]

/-! ## §5 How output begins -/

theorem exists_written_cons (coloured : Bool) (s : Span) (l : StyledLine) :
    ∃ rest, (StyledLine.written coloured (s :: l)).toList = (s.written coloured).toList ++ rest := by
  refine ⟨(StyledLine.written coloured l).toList, ?_⟩
  simp [StyledLine.written]

/-- A report begins with the severity of its first issue. -/
theorem exists_report_eq (coloured : Bool) {issues : List Issue} (h : issues ≠ []) :
    ∃ severity rest, (report coloured issues).toList =
      (Span.written coloured ⟨Issue.nameStyle severity, severity.name⟩).toList ++ rest := by
  have hsorted : Issue.sorted issues ≠ [] := fun hnil => h (Issue.sorted_eq_nil_iff.mp hnil)
  obtain ⟨first, others, hfirst⟩ := List.exists_cons_of_ne_nil hsorted
  have hlines : ∃ more, reportLines issues = first.headLine :: more := by
    rw [reportLines_eq, if_neg hsorted, hfirst]
    exact ⟨_, rfl⟩
  obtain ⟨more, hmore⟩ := hlines
  obtain ⟨rest, hhead⟩ := exists_written_cons coloured ⟨Issue.nameStyle first.severity, first.severity.name⟩
    [plainText (": " ++ first.headline ++ "  "), ⟨.dimmedCyan, first.code⟩]
  refine ⟨first.severity, rest ++ (writtenLines coloured more).toList, ?_⟩
  rw [report, hmore, writtenLines, List.map_cons, String.join_cons, String.toList_append, ← List.append_assoc, ← hhead]
  rfl

/-- No report is the line of something that went well. -/
theorem report_ne_successLine (coloured : Bool) {issues : List Issue} (h : issues ≠ []) (text : String) :
    report coloured issues ≠ (successLine text).written coloured := by
  intro heq
  obtain ⟨severity, rest, hreport⟩ := exists_report_eq coloured h
  obtain ⟨rest', hsuccess⟩ := exists_written_cons coloured ⟨.green, "✓"⟩ [plainText " ", ⟨.green, text⟩]
  rw [heq] at hreport
  have hbegin := hreport.symm.trans hsuccess
  cases coloured <;> cases severity <;>
    simp [Span.written, Style.parameters?, Issue.nameStyle, Severity.name] at hbegin

end Phrasebook
