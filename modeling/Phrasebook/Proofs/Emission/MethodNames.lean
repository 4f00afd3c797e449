import Phrasebook.Proofs.Emission.Invocation
import Phrasebook.Proofs.Name.Humps

/-!
# Names of methods and of their keys

A method without a key of its own has the key that its name is split to. Its function and the function of the accessor
of that key stand in different modules, and have one name: both names are made of the humps of the method.

- `Method.ofMethod_eq_escaped`: the name of a method and that of its key.
- `split_names_agree`: humps, and the functions of all methods of a compilation.
-/

namespace Phrasebook

open Phrasebook.Name Phrasebook.Text

theorem Method.keyName_of_not_given {m : Method} (h : given? m.key = none) : m.keyName = splitHumps m.name '.' := by
  rw [keyName, h]
  rfl

/-- The name of a method in the generated module is that of its key, if the key is made from the name. -/
theorem Method.ofMethod_eq_escaped {m : Method} (h : given? m.key = none) :
    ofMethod m.name = escaped (accessor m.keyName) := by
  rw [ofMethod, snake_eq_accessor, m.keyName_of_not_given h]

namespace Compile

/-- **Humps and the names of methods**: a split name is the lower-case form of the name with the separator exactly in
front of its humps, and stays as it is when it is split again. The function of a method without a key of its own has
the name of the function that it calls. -/
theorem split_names_agree :
    (∀ (name : String) (sep : Char),
      splitHumps name sep = String.ofList (lower (markHumps sep name.toList)) ∧
      splitHumps (splitHumps name sep) sep = splitHumps name sep) ∧
    (∀ m : Method, given? m.key = none →
      m.keyName = splitHumps m.name '.' ∧ ofMethod m.name = escaped (accessor m.keyName)) ∧
    ∀ (s : Settings) (cs : List Contract) (loader : SourceLoader) (o : CompileOutput), compile s cs loader = .ok o →
      List.Forall₂ (fun c t => ∀ m ∈ c.methods, given? m.key = none → ∃ a function callee call,
        t.accessors.get? m.keyName = some a ∧
        (ContractModule.ofTable s.properties t).Has m a s.properties function callee ∧
        function.Forwards callee call ∧ function.ident = callee.ident) cs o.tables := by
  refine ⟨fun name sep => ⟨?_, splitHumps_splitHumps name sep⟩,
    fun m h => ⟨m.keyName_of_not_given h, m.ofMethod_eq_escaped h⟩, fun s cs loader o h => ?_⟩
  · rw [splitHumps, splitHumpsChars, separateHumps_eq]
  · obtain ⟨runs, rfl, htables⟩ := exists_runs h
    rw [htables, List.forall₂_map_left_iff, List.forall₂_map_right_iff, List.forall₂_same]
    intro r _ m hm hkey
    obtain ⟨f, a, hf, ha, hcarries⟩ := r.exists_carries hm
    have hident := r.ident_of_get? ha
    obtain ⟨function, call, callee, hfunction, hcallee, hname, hforwards, -⟩ := hcarries.forwards hident s.properties
    refine ⟨a, function, callee, call, ha, r.has hf ha hcarries hfunction hcallee hname, hforwards, ?_⟩
    -- The function that is called has the escaped identifier of the key.
    obtain ⟨body, hread⟩ := AccessorFunction.read?_ofAccessor hident s.properties
    obtain rfl := Option.some.inj (hread.symm.trans hcallee)
    show function.ident = escaped a.ident
    rw [hname, hident, r.key_of_get? ha, m.ofMethod_eq_escaped hkey]

/-- A contract with a method whose name has a hump. -/
def Greetings.humped : Contract :=
  ⟨"app.Greetings", none, [⟨"sayHello", none, [⟨"locale", "Locale", .locale⟩]⟩]⟩

theorem split_names_agree_sayHello :
    splitHumps "sayHello" '.' = "say.hello" ∧
    ∃ o, compile Greetings.settings [Greetings.humped] Greetings.sources = .ok o ∧ ∃ t, o.tables = [t] ∧
      ∃ (a : Accessor) (function callee : FunctionCode) (call : CallCode), t.accessors.get? "say.hello" = some a ∧
        function.Forwards callee call ∧ function.ident = "say_hello" ∧ callee.ident = "say_hello" := by
  obtain ⟨hsplit, hmethods, hcompile⟩ := split_names_agree
  have hname : splitHumps "sayHello" '.' = "say.hello" := by
    rw [(hsplit _ _).1]
    decide
  have hkey := hmethods ⟨"sayHello", none, [⟨"locale", "Locale", .locale⟩]⟩ rfl
  obtain ⟨o, ho⟩ : ∃ o, compile Greetings.settings [Greetings.humped] Greetings.sources = .ok o := ⟨_, rfl⟩
  obtain ⟨t, ht, hfunctions⟩ := exists_of_forall₂_singleton (hcompile _ _ _ o ho)
  obtain ⟨a, function, callee, call, ha, hhas, hforwards, hsame⟩ := hfunctions _ (List.mem_singleton_self _) rfl
  have hident : function.ident = "say_hello" := hhas.ident.trans (by decide)
  exact ⟨hname, o, ho, t, ht, a, function, callee, call, by rw [← hname, ← hkey.1]; exact ha, hforwards, hident,
    hsame.symm.trans hident⟩

end Compile

end Phrasebook
