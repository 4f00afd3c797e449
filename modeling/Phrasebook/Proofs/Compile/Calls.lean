import Phrasebook.Proofs.Accessor.Calls
import Phrasebook.Proofs.Catalog.Schema
import Phrasebook.Proofs.Compile.Run
import Phrasebook.Proofs.Contract.Declaration

/-!
# Calls of compiled tables

In the table of a compiled contract, a key is rendered alike with arguments in order, with arguments by name and by
the methods that declare it.

- `ContractRun.exists_forwarding`: each method of a contract has a method in the table that serves it.
- `compile_calls_agree`: the ways to render a key agree, for all contracts of a compilation.
-/

namespace Phrasebook

namespace Compile

namespace ContractRun

variable {s : Settings} {loader : SourceLoader}

/-! ## §1 Methods -/

/-- A declared key has an accessor with the declared parameters. -/
theorem exists_accessor_of_declaration (r : ContractRun s loader) {d : Declaration} (hd : d ∈ r.declarations) :
    ∃ e a, r.assembly.catalog.entries.get? d.key = some e ∧ e.schema = d.parameters ∧
      r.table.accessors.get? d.key = some a ∧ a.schema = d.parameters := by
  have hschema := SchemaResolution.get?_of_declares r.resolved hd
  have hentry : r.assembly.catalog.entries.get? d.key
      = some (Assembly.entry r.sources.entries d.key ⟨d.parameters, true⟩) := by
    simp only [assembly, Assembly.assemble, KeyMap.get?_mapValues, hschema, Option.map_some]
  have haccessor : r.table.accessors.get? d.key = some (Table.accessorOf s.locales s.defaultLocale d.key
      (Assembly.entry r.sources.entries d.key ⟨d.parameters, true⟩)) := by
    rw [Table.get?_accessors r.generated]
    exact congrArg (Option.map _) hentry
  exact ⟨_, _, hentry, rfl, haccessor, rfl⟩

/-- The method of a declaration passes on what the declared method is called with. -/
theorem serves_of_forwardingOf {c : Catalog} {m : Method} {d : Declaration} (hd : Declaration.ofMethod m = .ok d)
    {e : CatalogEntry} (he : c.entries.get? d.key = some e) (hschema : e.schema = d.parameters) {f : Forwarding}
    (hf : Table.forwardingOf c d = .ok f) : f.Serves m d.parameters := by
  obtain ⟨slot, ps, hslots, hps, rfl⟩ := Declaration.ofMethod_eq_ok_iff.mp hd
  obtain ⟨e', places, he', hplaces, rfl⟩ := Table.forwardingOf_eq_ok_iff.mp hf
  obtain rfl : e' = e := Option.some.inj (he'.symm.trans he)
  -- The method has one locale parameter, and the slot is its place.
  have hlocale : slot ∈ Declaration.localeSlots m.parameters := by
    rw [hslots]
    exact List.mem_singleton_self slot
  refine ⟨rfl, List.length_map _, Declaration.mem_localeSlots_iff.mp hlocale, ?_⟩
  rw [hschema] at hplaces
  have hnodup := Declaration.names_nodup_of_readParameters hps
  have hall := (List.forall₂_and_left (p := (· ∈ ps)) ps places).mpr ⟨fun p hp => hp, hplaces⟩
  refine hall.imp fun p i hboth => ?_
  obtain ⟨hp, hi⟩ := hboth
  obtain ⟨hlt, hname, -⟩ := List.findIdx?_eq_some_iff_getElem.mp hi
  rw [List.length_map] at hlt
  rw [List.getElem_map, beq_iff_eq] at hname
  -- The parameter at the place is the only one of the name, hence the argument that the parameter is read from.
  obtain ⟨q, hq, hrole, hqname⟩ := Declaration.exists_argument_of_readParameters hps hp
  have hat : m.parameters[i] = q :=
    List.inj_on_of_nodup_map hnodup (List.getElem_mem hlt) hq (hname.trans hqname.symm)
  exact ⟨q, hat ▸ List.getElem?_eq_getElem hlt, hrole, hqname⟩

/-- Each method of a contract has a method in the table that serves it, and an accessor of its key. -/
theorem exists_forwarding (r : ContractRun s loader) {m : Method} (hm : m ∈ r.contract.methods) :
    ∃ f a, r.table.methods.get? m.name = some f ∧ r.table.accessors.get? m.keyName = some a ∧
      f.Serves m a.schema := by
  obtain ⟨d, hd, hof⟩ := exists_of_forall₂_of_mem (declarations_eq_ok_iff.mp r.declared) hm
  obtain ⟨e, a, he, hschema, ha, haschema⟩ := r.exists_accessor_of_declaration hd
  obtain ⟨-, fs, hfs, -⟩ := Table.ofCatalog_eq_ok_iff.mp r.generated
  obtain ⟨f, -, hf⟩ := exists_of_forall₂_of_mem hfs hd
  have hserves := serves_of_forwardingOf hof he hschema hf
  obtain ⟨slot, ps, -, -, rfl⟩ := Declaration.ofMethod_eq_ok_iff.mp hof
  refine ⟨f, a, ?_, ha, haschema ▸ hserves⟩
  exact (Table.get?_methods_eq_some_iff r.generated).mpr ⟨_, hd, rfl, hf⟩

end ContractRun

/-! ## §2 Compilations -/

/-- **Calls** of a compiled table agree: arguments in order, arguments by name and arguments of a method give the
same text or the same error; an argument that may be null may be left out, and ignored arguments do not matter. -/
theorem compile_calls_agree {s : Settings} {cs : List Contract} {loader : SourceLoader} {o : CompileOutput}
    (h : compile s cs loader = .ok o) :
    List.Forall₂ (fun c t => t.contract = c.name ∧ ∀ locale properties,
      (∀ key a, t.accessors.get? key = some a →
        (∀ args named, List.Forall₂ (fun p v => Json.field? p.name named = some v) a.schema args →
          t.render key locale args properties = t.renderByName key locale named properties) ∧
        ∀ p ∈ a.schema, p.type.nullable = true → ∀ named named',
          Json.field? p.name named = none → Json.field? p.name named' = some .null →
          (∀ name, name ≠ p.name → Json.field? name named = Json.field? name named') →
          t.renderByName key locale named properties = t.renderByName key locale named' properties) ∧
      ∀ m ∈ c.methods,
        (∀ args named, args.length = m.parameters.length →
          (∀ x ∈ m.parameters.zip args, x.1.role = .locale → x.2 = .string locale) →
          (∀ x ∈ m.parameters.zip args, x.1.role = .argument → Json.field? x.1.name named = some x.2) →
          t.invoke m.name args properties = t.renderByName m.keyName locale named properties) ∧
        ∀ args args' : List Json, args.length = args'.length →
          (∀ (i : Nat) q, m.parameters[i]? = some q → q.role ≠ .ignored → args[i]? = args'[i]?) →
          t.invoke m.name args properties = t.invoke m.name args' properties)
      cs o.tables := by
  obtain ⟨runs, rfl, htables⟩ := exists_runs h
  rw [htables, List.forall₂_map_left_iff, List.forall₂_map_right_iff, List.forall₂_same]
  intro r _
  refine ⟨r.table_contract, fun locale properties => ⟨fun key a ha => ⟨?_, ?_⟩, fun m hm => ?_⟩⟩
  · intro args named hgiven
    exact Table.render_eq_renderByName ha hgiven
  -- Parameters have different names, so only this one is read differently.
  · intro p hp hnullable named named' hout hnull hrest
    have hnodup := List.Nodup.of_map _ (Table.idents_nodup_of_get? r.generated ha)
    exact Table.renderByName_eq_of_null ha hnodup hp hnullable hout hnull hrest
  · obtain ⟨f, a, hf, ha, hserves⟩ := r.exists_forwarding hm
    refine ⟨fun args named hlength hlocale hnamed => ?_, fun args args' hlength hsame => ?_⟩
    · exact Table.invoke_eq_renderByName hf ha hserves hlength hlocale hnamed
    · exact Table.invoke_eq_of_ignored hf hserves hlength hsame

/-- The method is called with a value for its ignored parameter, which no argument by name stands for. -/
theorem compile_calls_agree_greeting :
    ∃ o, compile Greetings.settings [Greetings.contract] Greetings.sources = .ok o ∧ ∃ t, o.tables = [t] ∧
      t.invoke "greeting" [.string "fr-FR", .string "Ada", .null] (fun _ => none)
        = t.renderByName "greeting" "fr-FR" [("name", .string "Ada")] (fun _ => none) := by
  obtain ⟨o, ho⟩ : ∃ o, compile Greetings.settings [Greetings.contract] Greetings.sources = .ok o := ⟨_, rfl⟩
  obtain ⟨t, ts, hagree, hts, htables⟩ := List.forall₂_cons_left_iff.mp (compile_calls_agree ho)
  obtain rfl := List.forall₂_nil_left_iff.mp hts
  have hmethod := ((hagree.2 "fr-FR" fun _ => none).2 _ List.mem_cons_self).1
  refine ⟨o, ho, t, htables, hmethod [.string "fr-FR", .string "Ada", .null] [("name", .string "Ada")] rfl ?_ ?_⟩
  · simp
  · simp [Json.field?]

end Compile

end Phrasebook
