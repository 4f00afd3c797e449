import Phrasebook.Emission.Module
import Phrasebook.Proofs.Compile.Run
import Phrasebook.Proofs.Name.Identifier
import Phrasebook.Proofs.Template
import Mathlib.Data.List.Nodup

/-!
# Names of generated functions

The module of a contract has a function for each accessor and one that renders a key by name. The accessors of a table
have distinct identifiers, but what is generated are their escaped names, next to a fixed one.

- `ContractModule.functionNames`: the functions that the lines of a module begin.
- `ContractModule.functionNames_ofTable`: which these are.
- `nodup_functionNames_iff`: when escaped names are distinct.
- `compile_functions_distinct_iff`: the functions of all modules of a compilation.
-/

namespace Phrasebook

open Phrasebook.Name Phrasebook.Text

/-! ## §1 Functions in lines -/

/-- The name of the function that a line begins, if the function is one of the module of the contract itself. -/
def CodeLine.functionName? (l : CodeLine) : Option String :=
  if l.level = 1 then
    (dropStart? "pub fn ".toList l.code.toList).map fun cs => String.ofList (cs.takeWhile fun c => c ≠ '(')
  else none

namespace ContractModule

/-- The names of the functions of a module, in the order of its lines. -/
def functionNames (m : ContractModule) : List String := m.lines.filterMap CodeLine.functionName?

end ContractModule

theorem CodeLine.functionName?_of_level {l : CodeLine} (h : l.level ≠ 1) : l.functionName? = none := if_neg h

theorem CodeLine.functionName?_functionHead {ident : String} (h : '(' ∉ ident.toList)
    (parameters : List FunctionParameter) : functionName? ⟨1, functionHead ident parameters⟩ = some ident := by
  obtain ⟨rest, hcode⟩ : ∃ rest, (functionHead ident parameters).toList
      = "pub fn ".toList ++ (ident.toList ++ '(' :: rest) := by
    simp [functionHead, callText, String.toList_append]
  have hname : (ident.toList ++ '(' :: rest).takeWhile (fun c => c ≠ '(') = ident.toList := by
    rw [List.takeWhile_append_of_pos]
    · simp
    · intro c hc
      have hne : c ≠ '(' := ne_of_mem_of_not_mem hc h
      simpa using hne
  rw [functionName?, if_pos rfl, hcode, dropStart?_append, Option.map_some, hname, String.ofList_toList]

theorem AccessorFunction.filterMap_lines {f : AccessorFunction} (h : '(' ∉ f.ident.toList) :
    f.lines.filterMap CodeLine.functionName? = [f.ident] := by
  -- What the head begins stands at deeper levels.
  have hbody : f.body.filterMap CodeLine.functionName? = [] := by
    unfold body
    split
    · simp [CodeLine.functionName?_of_level]
    · simp [CodeLine.functionName?_of_level]
  have hdoc : CodeLine.functionName? ⟨1, "/// \x60" ++ f.key ++ "\x60"⟩ = none := by
    simp [CodeLine.functionName?, String.toList_append, dropStart?]
  have hclose : CodeLine.functionName? ⟨1, "\x7d"⟩ = none := by decide
  simp only [lines, List.filterMap_append, List.filterMap_cons, List.filterMap_nil, hdoc, hclose, hbody,
    CodeLine.functionName?_functionHead h, List.append_nil]

theorem filterMap_namedCallLines (calls : List NamedCall) :
    (namedCallLines calls).filterMap CodeLine.functionName? = ["render_by_name"] := by
  have hcalls : (calls.map fun c => (⟨3, c.code⟩ : CodeLine)).filterMap CodeLine.functionName? = [] := by
    simp [CodeLine.functionName?_of_level]
  rw [namedCallLines, List.filterMap_append, List.filterMap_append, hcalls]
  decide

theorem filterMap_methodLines (methods : List MethodFunction) :
    (methodLines methods).filterMap CodeLine.functionName? = [] := by
  have hmethods : (methods.flatMap fun f => CodeLine.blank :: f.lines).filterMap CodeLine.functionName? = [] := by
    rw [List.filterMap_flatMap]
    simp [MethodFunction.lines, CodeLine.blank, CodeLine.functionName?_of_level]
  rw [methodLines, List.filterMap_append, List.filterMap_append, hmethods]
  decide

namespace ContractModule

/-- The functions of a module are those of its accessors, and the one that renders a key by name. -/
theorem functionNames_eq {m : ContractModule} (h : ∀ f ∈ m.accessors, '(' ∉ f.ident.toList) :
    m.functionNames = m.accessors.map (·.ident) ++ ["render_by_name"] := by
  have haccessors : (m.accessors.flatMap fun f => CodeLine.blank :: f.lines).filterMap CodeLine.functionName?
      = m.accessors.map (·.ident) := by
    rw [List.filterMap_flatMap, List.map_eq_flatMap]
    apply List.flatMap_congr
    intro f hf
    rw [List.filterMap_cons_none (CodeLine.functionName?_of_level (by decide))]
    exact AccessorFunction.filterMap_lines (h f hf)
  -- The functions of methods stand one level deeper, in a module of their own.
  have hmethods : ((m.methods.map methodLines).getD []).filterMap CodeLine.functionName? = [] := by
    cases m.methods with
    | none => rfl
    | some methods => exact filterMap_methodLines methods
  have huse : CodeLine.functionName? ⟨1, "use super::\x7bLocale, Properties\x7d;"⟩ = none := by decide
  have hblank : CodeLine.blank.functionName? = none := rfl
  simp only [functionNames, lines, List.filterMap_append, haccessors, hmethods, List.filterMap_cons_none hblank,
    filterMap_namedCallLines]
  simp [CodeLine.functionName?_of_level, huse]

end ContractModule

/-! ## §2 Names of a table -/

/-- Identifiers stay distinct unless a word that can be no identifier stands next to the name that it gets. -/
theorem nodup_map_escaped_iff {idents : List String} (hnodup : idents.Nodup)
    (hident : ∀ ident ∈ idents, isIdentifier ident.toList = true) :
    (idents.map escaped).Nodup ↔ ∀ word ∈ reserved, word ∈ idents → word ++ "_" ∉ idents := by
  have hlonger : ∀ word ∈ reserved, word ≠ word ++ "_" := by decide
  rw [List.nodup_map_iff_inj_on hnodup]
  refine ⟨fun h word hword hmem hmem' => ?_, fun h x hx y hy heq => ?_⟩
  · -- The word gets the name that the other identifier has.
    have hsame : escaped word = escaped (word ++ "_") :=
      (escaped_eq_iff (hident _ hmem) (hident _ hmem')).mpr (.inr (.inl ⟨hword, rfl⟩))
    exact hlonger word hword (h word hmem _ hmem' hsame)
  · rcases (escaped_eq_iff (hident x hx) (hident y hy)).mp heq with hxy | ⟨hword, rfl⟩ | ⟨hword, rfl⟩
    · exact hxy
    · exact absurd hy (h x hword hx)
    · exact absurd hx (h y hword hy)

theorem nodup_functionNames_iff {idents : List String} (hnodup : idents.Nodup)
    (hident : ∀ ident ∈ idents, isIdentifier ident.toList = true) :
    (idents.map escaped ++ ["render_by_name"]).Nodup ↔
      "render_by_name" ∉ idents ∧ ∀ word ∈ reserved, word ∈ idents → word ++ "_" ∉ idents := by
  have hfixed : "render_by_name" ∉ idents.map escaped ↔ "render_by_name" ∉ idents := by
    have hplain : ∀ ident ∈ idents, escaped ident = "render_by_name" ↔ ident = "render_by_name" :=
      fun ident hmem => escaped_eq_plain_iff (hident ident hmem) (by decide) (by decide) (by decide)
    refine not_congr ⟨fun hmem => ?_, fun hmem => ?_⟩
    · obtain ⟨ident, hident', heq⟩ := List.mem_map.mp hmem
      exact (hplain ident hident').mp heq ▸ hident'
    · exact List.mem_map.mpr ⟨_, hmem, (hplain _ hmem).mpr rfl⟩
  rw [← List.concat_eq_append, List.nodup_concat, hfixed, nodup_map_escaped_iff hnodup hident]

theorem paren_not_mem_of_isIdentifier {ident : String} (h : isIdentifier ident.toList = true) :
    '(' ∉ ident.toList := by
  intro hmem
  have hchar := List.all_eq_true.mp (all_isIdentifierChar h) _ hmem
  revert hchar
  decide

theorem paren_not_mem_escaped {ident : String} (h : isIdentifier ident.toList = true) :
    '(' ∉ (escaped ident).toList := by
  rcases escaped_cases h with hescaped | ⟨-, hraw⟩
  · exact paren_not_mem_of_isIdentifier hescaped
  · rw [hraw, String.toList_append]
    simp [paren_not_mem_of_isIdentifier h]

namespace ContractModule

theorem functionNames_ofTable {t : Table} (properties : KeyMap ParamType)
    (h : ∀ a ∈ t.accessors.values, isIdentifier a.ident.toList = true) :
    (ofTable properties t).functionNames = (t.accessors.values.map (·.ident)).map escaped ++ ["render_by_name"] := by
  rw [functionNames_eq]
  · simp only [ofTable, List.map_map]
    rfl
  · intro f hf
    obtain ⟨a, ha, rfl⟩ := List.mem_map.mp hf
    exact paren_not_mem_escaped (h a ha)

end ContractModule

/-! ## §3 Compilations -/

namespace Compile

/-- **Function names**: the functions of each generated module are distinct unless an accessor has the name of the
function that renders a key by name, or two accessors have names that the escape of keywords makes the same. -/
theorem compile_functions_distinct_iff {s : Settings} {cs : List Contract} {loader : SourceLoader} {o : CompileOutput}
    (h : compile s cs loader = .ok o) :
    List.Forall₂ (fun t m =>
      m.functionNames = t.accessors.values.map (fun a => escaped a.ident) ++ ["render_by_name"] ∧
      (m.functionNames.Nodup ↔
        (∀ a ∈ t.accessors.values, a.ident ≠ "render_by_name") ∧
          ∀ word ∈ reserved, ∀ a ∈ t.accessors.values, a.ident = word →
            ∀ b ∈ t.accessors.values, b.ident ≠ word ++ "_"))
      o.tables (GeneratedModule.ofTables s o.tables).contracts := by
  obtain ⟨runs, rfl, htables⟩ := exists_runs h
  show List.Forall₂ _ o.tables (o.tables.map (ContractModule.ofTable s.properties))
  rw [List.forall₂_map_right_iff, List.forall₂_same, htables]
  intro t ht
  obtain ⟨r, -, rfl⟩ := List.mem_map.mp ht
  -- A table checks the identifiers of its keys before keywords are escaped.
  have hidents := Table.idents_accessors r.generated
  have hnodup : (r.table.accessors.values.map (·.ident)).Nodup :=
    hidents ▸ (Table.ofCatalog_eq_ok_iff.mp r.generated).1.1
  have hident : ∀ ident ∈ r.table.accessors.values.map (·.ident), isIdentifier ident.toList = true := by
    intro ident hmem
    rw [hidents] at hmem
    obtain ⟨key, -, rfl⟩ := List.mem_map.mp hmem
    exact isIdentifier_accessor key
  have hnames := ContractModule.functionNames_ofTable s.properties fun a ha => hident _ (List.mem_map_of_mem ha)
  refine ⟨hnames.trans (by rw [List.map_map]; rfl), ?_⟩
  rw [hnames, nodup_functionNames_iff hnodup hident]
  simp

theorem compile_functions_distinct_greetings :
    ∃ o, compile Greetings.settings [Greetings.contract] Greetings.sources = .ok o ∧
      ∃ m, (GeneratedModule.ofTables Greetings.settings o.tables).contracts = [m] ∧ m.functionNames.Nodup := by
  obtain ⟨o, ho, hidents⟩ : ∃ o, compile Greetings.settings [Greetings.contract] Greetings.sources = .ok o ∧
      o.tables.map (fun t => t.accessors.values.map (·.ident)) = [["farewell", "greeting"]] := ⟨_, rfl, rfl⟩
  obtain ⟨t, htables, ht⟩ := List.map_eq_singleton_iff.mp hidents
  have hall := compile_functions_distinct_iff ho
  rw [htables] at hall
  obtain ⟨m, hmodules, -, hiff⟩ := exists_of_forall₂_singleton hall
  have hident : ∀ a ∈ t.accessors.values, a.ident ∈ ["farewell", "greeting"] := by
    intro a ha
    rw [← ht]
    exact List.mem_map_of_mem ha
  have hfixed : "render_by_name" ∉ ["farewell", "greeting"] := by decide
  have hreserved : ∀ word ∈ reserved, word ∉ ["farewell", "greeting"] := by decide
  refine ⟨o, ho, m, htables ▸ hmodules, hiff.mpr ⟨fun a ha heq => ?_, fun word hword a ha heq => ?_⟩⟩
  · exact hfixed (heq ▸ hident a ha)
  · exact absurd (heq ▸ hident a ha) (hreserved word hword)

/-- Sources with a word that can be no identifier, and with the name that this word gets. -/
def Greetings.words : SourceLoader := fun _ _ =>
  .found "en_us/greetings.yaml" (.branch [("self", .leaf ⟨"I", none⟩), ("self_", .leaf ⟨"Me", none⟩)])

/-- The identifiers of two accessors differ, but their functions have one name. -/
theorem compile_functions_not_distinct :
    ∃ o, compile Greetings.settings [Greetings.visitor] Greetings.words = .ok o ∧
      ∃ m ∈ (GeneratedModule.ofTables Greetings.settings o.tables).contracts,
        m.functionNames = ["self_", "self_", "render_by_name"] ∧ ¬ m.functionNames.Nodup := by
  have htwice : ¬ ["self_", "self_", "render_by_name"].Nodup := by decide
  refine ⟨_, rfl, _, List.mem_singleton_self _, ?_⟩
  rw [and_iff_left_of_imp fun hnames => hnames ▸ htwice]
  decide

end Compile

end Phrasebook
