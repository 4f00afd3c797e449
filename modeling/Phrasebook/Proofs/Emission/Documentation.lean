import Phrasebook.Emission.Module
import Phrasebook.Proofs.Compile.Selection
import Phrasebook.Proofs.Emission.Lookup

/-!
# Names in documentation

The names of a contract, of its file and of its keys are written into documentation as they are. Documentation ends with
its line, so what stands behind a line feed in a name is code.

## Layers

- `CodeLine.outside`: what stands behind the first line feed of a line; `CodeLine.lex_documentation`: it is what is read
  of a line of documentation.
- `ContractModule.filter_lines`: the documentation in the module of a contract.
- `ContractModule.stays_iff`: when each line of it is one line.
- `Compile.compile_documentation`: when it is so in a compilation.
-/

namespace Phrasebook

open Phrasebook.Name Phrasebook.Text

/-! ## §1 Lines -/

/-- What stands behind the first line feed of a text that ends with one. -/
def behindLine (s : List Char) : List Char := ((s ++ ['\n']).dropWhile (· ≠ '\n')).tail

theorem behindLine_cons (c : Char) (s : List Char) :
    behindLine (c :: s) = if c = '\n' then s ++ ['\n'] else behindLine s := by
  unfold behindLine
  by_cases hc : c = '\n' <;> simp [hc]

theorem exists_line (s : List Char) : ∃ line, '\n' ∉ line ∧ s ++ ['\n'] = line ++ '\n' :: behindLine s := by
  induction s with
  | nil => exact ⟨[], List.not_mem_nil, rfl⟩
  | cons c s ih =>
    rw [behindLine_cons]
    by_cases hc : c = '\n'
    · exact ⟨[], List.not_mem_nil, by rw [if_pos hc, hc]; rfl⟩
    · obtain ⟨line, hline, heq⟩ := ih
      refine ⟨c :: line, by simp [Ne.symm hc, hline], ?_⟩
      rw [if_neg hc, List.cons_append, heq, List.cons_append]

theorem behindLine_eq_nil_iff {s : List Char} : behindLine s = [] ↔ '\n' ∉ s := by
  induction s with
  | nil => exact iff_of_true rfl List.not_mem_nil
  | cons c s ih =>
    rw [behindLine_cons]
    by_cases hc : c = '\n'
    · simp [hc]
    · simp [hc, Ne.symm hc, ih]

namespace CodeLine

/-- Whether a line begins as documentation. -/
def isDocumentation (l : CodeLine) : Bool := "///".toList.isPrefixOf l.code.toList

/-- What stands behind the first line feed of a line, up to the line feed that ends it. -/
def outside (l : CodeLine) : List Char := behindLine l.code.toList

theorem not_isDocumentation_append {start : String} {c : Char} {cs : List Char} (hstart : start.toList = c :: cs)
    (hc : c ≠ '/') (level : Nat) (rest : String) : (CodeLine.mk level (start ++ rest)).isDocumentation = false := by
  have hne : ('/' == c) = false := beq_false_of_ne (Ne.symm hc)
  unfold isDocumentation
  rw [String.toList_append, hstart, List.cons_append]
  show ('/' == c && _) = false
  rw [hne, Bool.false_and]

theorem isDocumentation_append {start : String} (h : "///".toList <+: start.toList) (level : Nat) (rest : String) :
    (CodeLine.mk level (start ++ rest)).isDocumentation = true := by
  rw [isDocumentation, List.isPrefixOf_iff_prefix, String.toList_append]
  exact h.trans (List.prefix_append _ _)

/-- Of a line of documentation, what stands behind its first line feed is read as code, and nothing else. -/
theorem lex_documentation {l : CodeLine} (h : l.isDocumentation = true) (rest : List Char) :
    lex (l.written.toList ++ rest) = lex (l.outside ++ rest) := by
  obtain ⟨text, hcode⟩ := List.isPrefixOf_iff_prefix.mp h
  obtain ⟨n, hwritten⟩ := exists_indentation l
  obtain ⟨line, hline, htext⟩ := exists_line text
  have houtside : l.outside = behindLine text := by
    unfold outside
    rw [← hcode]
    rfl
  have hparts : l.written.toList ++ rest
      = List.replicate n ' ' ++ '/' :: ('/' :: '/' :: line ++ '\n' :: (behindLine text ++ rest)) := by
    rw [hwritten, ← hcode, List.append_assoc "///".toList, htext]
    simp
  -- Behind the first slash, the comment goes on up to the first line feed.
  have hcomment : '\n' ∉ '/' :: '/' :: line := by simp [hline]
  rw [hparts, lex_blanks, houtside]
  exact tokensFrom_comment hcomment

end CodeLine

/-! ## §2 Modules of contracts -/

/-- The line in front of the function of an accessor. -/
def AccessorFunction.documentation (f : AccessorFunction) : CodeLine := ⟨1, "/// \x60" ++ f.key ++ "\x60"⟩

/-- The line in front of the function of a method. -/
def MethodFunction.documentation (f : MethodFunction) : CodeLine := ⟨2, "/// Forwards to \x60" ++ f.key ++ "\x60."⟩

namespace ContractModule

/-- The line in front of the module of a contract. -/
def head (m : ContractModule) : CodeLine :=
  ⟨0, "/// \x60" ++ m.contract ++ "\x60, read from \x60" ++ m.fileName ++ "\x60."⟩

/-- The line in front of the function that renders a key by name. -/
def lookupDocumentation : CodeLine := ⟨1, "/// Renders a key by name, reading arguments from a JSON object."⟩

/-- The documentation in the module of a contract. -/
def documentation (m : ContractModule) : List CodeLine :=
  m.head :: (m.accessors.map (·.documentation) ++ lookupDocumentation :: (m.methods.getD []).map (·.documentation))

end ContractModule

theorem TextExpression.not_isDocumentation (e : TextExpression) (level : Nat) :
    (CodeLine.mk level e.code).isDocumentation = false := by
  unfold code callText
  split
  · rw [String.append_assoc, String.append_assoc]
    exact CodeLine.not_isDocumentation_append rfl (by decide) _ _
  · rw [String.append_assoc, String.append_assoc]
    exact CodeLine.not_isDocumentation_append rfl (by decide) _ _

theorem not_isDocumentation_functionHead (ident : String) (ps : List FunctionParameter) (level : Nat) :
    (CodeLine.mk level (functionHead ident ps)).isDocumentation = false := by
  unfold functionHead
  rw [String.append_assoc]
  exact CodeLine.not_isDocumentation_append rfl (by decide) _ _

theorem AccessorFunction.isDocumentation_documentation (f : AccessorFunction) :
    f.documentation.isDocumentation = true := by
  rw [documentation, String.append_assoc]
  exact CodeLine.isDocumentation_append (by decide) _ _

theorem MethodFunction.isDocumentation_documentation (f : MethodFunction) :
    f.documentation.isDocumentation = true := by
  rw [documentation, String.append_assoc]
  exact CodeLine.isDocumentation_append (by decide) _ _

theorem AccessorFunction.not_isDocumentation_of_mem_body {f : AccessorFunction} {l : CodeLine} (h : l ∈ f.body) :
    l.isDocumentation = false := by
  -- An arm begins with the name of a type, whatever its text is.
  have harm : ∀ variant code, (CodeLine.mk 3 (armCode (localePath variant) code)).isDocumentation = false := by
    intro variant code
    rw [armCode, localePath, String.append_assoc, String.append_assoc, String.append_assoc]
    exact CodeLine.not_isDocumentation_append rfl (by decide) _ _
  unfold body at h
  split at h
  · obtain rfl := List.mem_singleton.mp h
    exact f.fallback.not_isDocumentation 2
  · simp only [List.cons_append, List.mem_cons, List.mem_append, List.mem_map, List.not_mem_nil, or_false] at h
    rcases h with rfl | ⟨arm, -, rfl⟩ | rfl | rfl
    · rfl
    · exact harm _ _
    · rw [armCode, String.append_assoc, String.append_assoc]
      exact CodeLine.not_isDocumentation_append rfl (by decide) _ _
    · rfl

theorem AccessorFunction.filter_lines (f : AccessorFunction) :
    f.lines.filter CodeLine.isDocumentation = [f.documentation] := by
  have hbody : f.body.filter CodeLine.isDocumentation = [] :=
    List.filter_eq_nil_iff.mpr fun l hl => by simp [not_isDocumentation_of_mem_body hl]
  have hdocumentation := f.isDocumentation_documentation
  unfold documentation at hdocumentation
  have hend : (CodeLine.mk 1 "\x7d").isDocumentation = false := rfl
  simp only [lines, documentation, List.filter_append, hbody, List.filter_cons, List.filter_nil, hdocumentation,
    not_isDocumentation_functionHead, hend, ↓reduceIte, Bool.false_eq_true, List.append_nil]

theorem MethodFunction.filter_lines (f : MethodFunction) :
    f.lines.filter CodeLine.isDocumentation = [f.documentation] := by
  have hcall : (CodeLine.mk 3 (callText ("super::" ++ f.function) f.arguments)).isDocumentation = false := by
    rw [callText, String.append_assoc, String.append_assoc, String.append_assoc]
    exact CodeLine.not_isDocumentation_append rfl (by decide) _ _
  have hdocumentation := f.isDocumentation_documentation
  unfold documentation at hdocumentation
  have hend : (CodeLine.mk 2 "\x7d").isDocumentation = false := rfl
  simp only [lines, documentation, List.filter_cons, List.filter_nil, hdocumentation, hcall,
    not_isDocumentation_functionHead, hend, ↓reduceIte, Bool.false_eq_true]

theorem filter_namedCallLines (calls : List NamedCall) :
    (namedCallLines calls).filter CodeLine.isDocumentation = [ContractModule.lookupDocumentation] := by
  have hcalls : (calls.map fun c => CodeLine.mk 3 c.code).filter CodeLine.isDocumentation = [] := by
    refine List.filter_eq_nil_iff.mpr fun l hl => ?_
    obtain ⟨c, -, rfl⟩ := List.mem_map.mp hl
    -- The arm of a key begins with a quote.
    have hquote : c.code = "\"" ++ (String.ofList (c.key.toList.flatMap quotedChar ++ ['"']) ++ (" => " ++
        callText "Ok" [callText c.function ("locale" :: "props" :: c.arguments.map NamedArgument.code)] ++ ",")) := by
      apply String.toList_inj.mp
      simp [NamedCall.code, armCode, quoted]
    rw [hquote, CodeLine.not_isDocumentation_append rfl (by decide)]
    decide
  rw [namedCallLines, List.filter_append, List.filter_append, hcalls]
  rfl

namespace ContractModule

theorem filter_lines (m : ContractModule) : m.lines.filter CodeLine.isDocumentation = m.documentation := by
  have hhead : m.head.isDocumentation = true := by
    rw [head, String.append_assoc, String.append_assoc, String.append_assoc]
    exact CodeLine.isDocumentation_append (by decide) _ _
  have hmodule : (CodeLine.mk 0 ("pub mod " ++ m.ident ++ " \x7b")).isDocumentation = false := by
    rw [String.append_assoc]
    exact CodeLine.not_isDocumentation_append rfl (by decide) _ _
  have hblank : CodeLine.blank.isDocumentation = false := rfl
  -- Of the lines of each function, the first one only is documentation.
  have haccessors : (m.accessors.flatMap fun f => CodeLine.blank :: f.lines).filter CodeLine.isDocumentation
      = m.accessors.map (·.documentation) := by
    simp only [List.filter_flatMap, List.filter_cons, hblank, AccessorFunction.filter_lines, Bool.false_eq_true,
      ↓reduceIte]
    exact List.map_eq_flatMap.symm
  have hmethods : ((m.methods.map methodLines).getD []).filter CodeLine.isDocumentation
      = (m.methods.getD []).map (·.documentation) := by
    cases m.methods with
    | none => rfl
    | some methods =>
      simp only [Option.map_some, Option.getD_some, methodLines, List.filter_append, List.filter_flatMap,
        List.filter_cons, List.filter_nil, hblank, MethodFunction.filter_lines, Bool.false_eq_true, ↓reduceIte]
      exact (List.append_nil _).trans List.map_eq_flatMap.symm
  have huse : (CodeLine.mk 1 "use super::\x7bLocale, Properties\x7d;").isDocumentation = false := rfl
  have hend : (CodeLine.mk 0 "\x7d").isDocumentation = false := rfl
  unfold head at hhead
  simp only [lines, documentation, head, List.filter_append, List.filter_cons, List.filter_nil, hhead, hmodule, hblank,
    huse, hend, haccessors, filter_namedCallLines, hmethods, Bool.false_eq_true, ↓reduceIte, List.append_nil,
    List.append_assoc, List.cons_append, List.nil_append]

/-- Each line of the documentation is one line exactly when no name in it has a line feed. -/
theorem stays_iff (m : ContractModule) :
    (∀ l ∈ m.documentation, l.outside = []) ↔
      '\n' ∉ m.contract.toList ∧ '\n' ∉ m.fileName.toList ∧ (∀ f ∈ m.accessors, '\n' ∉ f.key.toList) ∧
        ∀ f ∈ m.methods.getD [], '\n' ∉ f.key.toList := by
  have hhead : m.head.outside = [] ↔ '\n' ∉ m.contract.toList ∧ '\n' ∉ m.fileName.toList := by
    simp [CodeLine.outside, behindLine_eq_nil_iff, head]
  have haccessor : ∀ f : AccessorFunction, f.documentation.outside = [] ↔ '\n' ∉ f.key.toList := fun f => by
    simp [CodeLine.outside, behindLine_eq_nil_iff, AccessorFunction.documentation]
  have hmethod : ∀ f : MethodFunction, f.documentation.outside = [] ↔ '\n' ∉ f.key.toList := fun f => by
    simp [CodeLine.outside, behindLine_eq_nil_iff, MethodFunction.documentation]
  have hlookup : lookupDocumentation.outside = [] := rfl
  simp only [documentation, List.forall_mem_cons, List.forall_mem_append, List.forall_mem_map, hhead, haccessor,
    hmethod, hlookup, true_and, and_assoc]

end ContractModule

/-! ## §3 Compilations -/

namespace Compile

variable {s : Settings} {loader : SourceLoader}

/-- The keys in the documentation of a compiled contract are those that it declares or has a text of. -/
theorem ContractRun.keys_documented (r : ContractRun s loader) :
    ((∀ f ∈ (ContractModule.ofTable s.properties r.table).accessors, '\n' ∉ f.key.toList) ∧
      ∀ f ∈ (ContractModule.ofTable s.properties r.table).methods.getD [], '\n' ∉ f.key.toList) ↔
      ∀ key, (∃ m ∈ r.contract.methods, m.keyName = key) ∨
        (∃ locale ∈ s.locales, (textAt? loader (r.contract.fileName s.package) key locale).isSome) →
          '\n' ∉ key.toList := by
  have haccessors : (∀ f ∈ (ContractModule.ofTable s.properties r.table).accessors, '\n' ∉ f.key.toList) ↔
      ∀ key, r.table.accessors.contains key = true → '\n' ∉ key.toList := by
    simp only [ContractModule.ofTable, List.forall_mem_map]
    refine ⟨fun h key hkey => ?_, fun h a ha => ?_⟩
    · obtain ⟨a, ha⟩ := KeyMap.contains_iff.mp hkey
      have hmem : a ∈ r.table.accessors.values := List.mem_map_of_mem (KeyMap.mem_entries_iff.mpr ha)
      exact r.key_of_get? ha ▸ h a hmem
    · obtain ⟨e, he, rfl⟩ := List.mem_map.mp ha
      have hget := KeyMap.mem_entries_iff.mp he
      show '\n' ∉ e.2.key.toList
      rw [r.key_of_get? hget]
      exact h e.1 (KeyMap.contains_iff.mpr ⟨_, hget⟩)
  -- A method has a function only if its key has an accessor.
  have hmethods : ∀ f ∈ (ContractModule.ofTable s.properties r.table).methods.getD [],
      r.table.accessors.contains f.key = true := by
    intro f hf
    simp only [ContractModule.ofTable] at hf
    split at hf
    · cases hf
    · obtain ⟨forwarding, -, hforwarding⟩ := List.mem_filterMap.mp hf
      obtain ⟨a, ha, rfl⟩ := Option.map_eq_some_iff.mp hforwarding
      exact KeyMap.contains_iff.mpr ⟨a, ha⟩
  rw [haccessors]
  refine ⟨fun h key hkey => ?_, fun h => ?_⟩
  · by_cases hempty : key = ""
    · rw [hempty]
      exact List.not_mem_nil
    · exact h.1 key ((r.contains_iff hempty).mpr hkey)
  · have hall : ∀ key, r.table.accessors.contains key = true → '\n' ∉ key.toList := by
      intro key hkey
      by_cases hempty : key = ""
      · rw [hempty]
        exact List.not_mem_nil
      · exact h key ((r.contains_iff hempty).mp hkey)
    exact ⟨hall, fun f hf => hall f.key (hmethods f hf)⟩

/-- **Documentation**: of a line of documentation in a generated module, only what stands behind a line feed in a name
is read as code. There is no such line exactly when no line feed is in the names of the contracts, of their files and of
the keys that a contract declares or has a text of. -/
theorem compile_documentation {cs : List Contract} {o : CompileOutput} (h : compile s cs loader = .ok o) :
    List.Forall₂ (fun c m =>
      (∀ l ∈ m.lines, l.isDocumentation = true → ∀ rest, lex (l.written.toList ++ rest) = lex (l.outside ++ rest)) ∧
      ((∀ l ∈ m.lines, l.isDocumentation = true → l.outside = []) ↔
        '\n' ∉ c.name.toList ∧ '\n' ∉ (c.fileName s.package).toList ∧
          ∀ key, (∃ m ∈ c.methods, m.keyName = key) ∨
            (∃ locale ∈ s.locales, (textAt? loader (c.fileName s.package) key locale).isSome) → '\n' ∉ key.toList))
      cs (GeneratedModule.ofTables s o.tables).contracts := by
  obtain ⟨runs, rfl, htables⟩ := exists_runs h
  show List.Forall₂ _ _ (o.tables.map (ContractModule.ofTable s.properties))
  rw [htables, List.map_map, forall₂_map_same_iff]
  intro r _
  refine ⟨fun l _ => CodeLine.lex_documentation, ?_⟩
  -- Lines of documentation are known as a list, so it is enough to look at this list.
  have hlines : ∀ P : CodeLine → Prop,
      (∀ l ∈ (ContractModule.ofTable s.properties r.table).lines, l.isDocumentation = true → P l) ↔
        ∀ l ∈ (ContractModule.ofTable s.properties r.table).documentation, P l := by
    intro P
    rw [← ContractModule.filter_lines]
    simp only [List.mem_filter, and_imp]
  show (∀ l ∈ (ContractModule.ofTable s.properties r.table).lines, _) ↔ _
  rw [hlines fun l => l.outside = [], ContractModule.stays_iff, r.keys_documented]
  have hname : (ContractModule.ofTable s.properties r.table).contract = r.contract.name := r.table_contract
  have hfile : (ContractModule.ofTable s.properties r.table).fileName = r.contract.fileName s.package := by
    obtain ⟨-, fs, -, -, htable⟩ := Table.ofCatalog_eq_ok_iff.mp r.generated
    exact congrArg Table.fileName htable
  rw [hname, hfile]

/-- Without line feeds in names, nothing of the documentation is read as code. -/
theorem compile_documentation_greetings :
    ∃ o, compile Greetings.settings [Greetings.contract] Greetings.sources = .ok o ∧
      ∃ m, (GeneratedModule.ofTables Greetings.settings o.tables).contracts = [m] ∧
        ∀ l ∈ m.lines, l.isDocumentation = true → ∀ rest, lex (l.written.toList ++ rest) = lex rest := by
  obtain ⟨o, ho⟩ : ∃ o, compile Greetings.settings [Greetings.contract] Greetings.sources = .ok o := ⟨_, rfl⟩
  obtain ⟨m, hmodules, hlex, hiff⟩ := exists_of_forall₂_singleton (compile_documentation ho)
  have hdeclared : ∀ m ∈ Greetings.contract.methods, '\n' ∉ m.keyName.toList := by decide
  -- Two of the locales have sources, with known keys; the third has none.
  have hsourced : ∀ locale ∈ Greetings.settings.locales, ∀ key,
      (textAt? Greetings.sources (Greetings.contract.fileName Greetings.settings.package) key locale).isSome →
        '\n' ∉ key.toList := by
    intro locale hlocale key htext
    unfold textAt? at htext
    split at htext
    · rename_i path tree hfound
      have hmem : key ∈ tree.flatten.keys := by
        rw [KeyMap.mem_keys_iff, KeyMap.contains]
        simpa using htext
      have hkeys : ∀ key ∈ tree.flatten.keys, '\n' ∉ key.toList := by
        rcases List.mem_cons.mp hlocale with rfl | hlocale
        · cases hfound
          decide
        rcases List.mem_cons.mp hlocale with rfl | hlocale
        · cases hfound
          decide
        · obtain rfl := List.mem_singleton.mp hlocale
          cases hfound
      exact hkeys key hmem
    · cases htext
  have hall : ∀ l ∈ m.lines, l.isDocumentation = true → l.outside = [] := by
    refine hiff.mpr ⟨by decide, by decide, fun key hkey => ?_⟩
    rcases hkey with ⟨m, hm, rfl⟩ | ⟨locale, hlocale, htext⟩
    · exact hdeclared m hm
    · exact hsourced locale hlocale key htext
  refine ⟨o, ho, m, hmodules, fun l hl hdoc rest => ?_⟩
  rw [hlex l hl hdoc rest, hall l hl hdoc, List.nil_append]

/-- A key that ends its comment and begins a function. -/
def Greetings.strayKey : SourceLoader := fun _ _ =>
  .found "en_us/greetings.yaml" (.branch [("hello\nfn stray() \x7b\x7d //", .leaf ⟨"Hello", none⟩)])

/-- A part of the key is read as code: it is the function. -/
theorem compile_documentation_stray :
    ∃ o, compile Greetings.settings [Greetings.visitor] Greetings.strayKey = .ok o ∧
      ∃ m ∈ (GeneratedModule.ofTables Greetings.settings o.tables).contracts, ∃ l ∈ m.lines,
        l.isDocumentation = true ∧ ∀ rest, lex (l.written.toList ++ rest)
          = [.word "fn", .word "stray", .mark '(', .mark ')', .mark '\x7b', .mark '\x7d'] ++ lex rest := by
  obtain ⟨o, ho, m, hm, f, hf, hkey⟩ : ∃ o,
      compile Greetings.settings [Greetings.visitor] Greetings.strayKey = .ok o ∧
      ∃ m ∈ (GeneratedModule.ofTables Greetings.settings o.tables).contracts, ∃ f ∈ m.accessors,
        f.key = "hello\nfn stray() \x7b\x7d //" :=
    ⟨_, rfl, _, List.mem_singleton_self _, _, List.mem_singleton_self _, rfl⟩
  have hmem : f.documentation ∈ m.lines.filter CodeLine.isDocumentation := by
    rw [ContractModule.filter_lines]
    exact List.mem_cons_of_mem _ (List.mem_append_left _ (List.mem_map_of_mem hf))
  obtain ⟨hline, hbegins⟩ := List.mem_filter.mp hmem
  -- The line feed ends the comment, and the two slashes begin another one before the closing backquote.
  have houtside : f.documentation.outside = "fn stray() \x7b\x7d //\x60\n".toList := by
    rw [CodeLine.outside, AccessorFunction.documentation, hkey]
    decide
  refine ⟨o, ho, m, hm, f.documentation, hline, hbegins, fun rest => ?_⟩
  rw [CodeLine.lex_documentation hbegins, houtside]
  rfl

end Compile

end Phrasebook
