import Phrasebook.Proofs.Accessor.Calls
import Phrasebook.Proofs.Compile.Run
import Phrasebook.Proofs.Registry.Run
import Phrasebook.Proofs.Template

/-!
# What a rendered phrase depends on

A phrase shows its parameters and the properties that its template mentions. Two runs that agree on these render the
phrase alike, whatever else the arguments and the properties are.

## Layers

- `Registry.HasAccepted`: the value that a property has for a template, read off a run; `properties_eq_some_iff` finds
  it in the state.
- `Accessor.renderAccepted_congr`, `Table.renderByName_congr`: what one phrase looks at.
- `compile_renders_declared`: two runs of a compiled registry.
-/

namespace Phrasebook

/-! ## §1 Values of properties -/

/-- A value is accepted as it is. -/
theorem ParamType.eq_of_coerce_eq_ok {t : ParamType} {v w : Json} (h : t.coerce (some v) = .ok w) : w = v := by
  unfold coerce at h
  split at h
  · rename_i hnone
    cases hnone
  · rename_i hnull
    obtain rfl := Option.some.inj hnull
    split at h
    · exact (Except.ok.inj h).symm
    · cases h
  · rename_i _ hvalue
    obtain rfl := Option.some.inj hvalue
    split at h
    · exact (Except.ok.inj h).symm
    · cases h

namespace Registry

variable {r : Registry} {history history' : List RegistryRequest} {name : String}

/-- A run leaves a declared property with a value that its type accepts. -/
def HasAccepted (r : Registry) (history : List RegistryRequest) (name : String) (v : Json) : Prop :=
  ∃ t, r.propertyTypes.get? name = some t ∧ valueAfter history name = some v ∧ t.coerce (some v) = .ok v

/-- A template sees the accepted values and no others, whichever provider renders it. -/
theorem properties_eq_some_iff {run : List RegistryRequest} {c : String} {p : Provider} (hp : r.GivenOut run c p)
    {v : Json} : p.properties (r.stateAfter history).bags name = some v ↔ r.HasAccepted history name v := by
  obtain ⟨htypes, hbag⟩ := shares_of_givenOut hp
  unfold Provider.properties HasAccepted
  rw [htypes, hbag, get?_bags_stateAfter]
  cases r.propertyTypes.get? name with
  | none => simp
  | some t =>
    cases valueAfter history name with
    | none => simp
    | some w =>
      simp only [Option.some.injEq, exists_eq_left']
      -- A value that is accepted is not changed by the check of its type.
      refine ⟨fun h => ?_, fun h => ?_⟩
      · cases hcoerce : t.coerce (some w) with
        | error found =>
          rw [hcoerce] at h
          cases h
        | ok u =>
          rw [hcoerce] at h
          obtain rfl : u = v := Option.some.inj h
          obtain rfl : u = w := t.eq_of_coerce_eq_ok hcoerce
          exact ⟨rfl, hcoerce⟩
      · obtain ⟨rfl, hcoerce⟩ := h
        rw [hcoerce]
        rfl

theorem properties_congr {c c' : String} {p p' : Provider} (hp : r.GivenOut history c p)
    (hp' : r.GivenOut history' c' p') (h : ∀ v, r.HasAccepted history name v ↔ r.HasAccepted history' name v) :
    p.properties (r.stateAfter history).bags name = p'.properties (r.stateAfter history').bags name := by
  refine Option.ext fun v => ?_
  rw [properties_eq_some_iff hp, properties_eq_some_iff hp', h]

end Registry

/-! ## §2 One phrase -/

/-- A property is looked at where the template mentions it and no parameter has its name. -/
theorem Accessor.renderAccepted_congr {a : Accessor} {locale : String} {properties properties' : PropertySource}
    (h : ∀ template, a.select locale = some template → ∀ name ∈ template.placeholders, name ∉ a.schema.names →
      properties name = properties' name) (args : List Json) :
    a.renderAccepted locale args properties = a.renderAccepted locale args properties' := by
  unfold renderAccepted
  cases hselect : a.select locale with
  | none => rfl
  | some template =>
    refine Template.render_congr fun name hname => ?_
    unfold resolve
    -- A parameter is shown from its argument, whatever the properties are.
    cases hposition : a.schema.position? name with
    | some i => rfl
    | none =>
      have hother : name ∉ a.schema.names := by
        intro hmem
        obtain ⟨p, hp, hpname⟩ := List.mem_map.mp hmem
        have hne := List.findIdx?_eq_none_iff.mp hposition p hp
        simp [hpname] at hne
      exact congrArg (Option.map Json.display) (h template hselect name hname hother)

/-- By name, a key looks at the arguments of its parameters and at the properties that the template of the locale
mentions. -/
theorem Table.renderByName_congr {t : Table} {key locale : String} {args args' : List (String × Json)}
    {properties properties' : PropertySource}
    (hargs : ∀ a, t.accessors.get? key = some a → ∀ p ∈ a.schema,
      p.type.coerce (Json.field? p.name args) = p.type.coerce (Json.field? p.name args'))
    (hproperties : ∀ a template, t.accessors.get? key = some a → a.select locale = some template →
      ∀ name ∈ template.placeholders, name ∉ a.schema.names → properties name = properties' name) :
    t.renderByName key locale args properties = t.renderByName key locale args' properties' := by
  cases ha : t.accessors.get? key with
  | none => simp only [renderByName, lookup, ha]; rfl
  | some a =>
    rw [renderByName_of_get? ha, renderByName_of_get? ha, Accessor.namedArguments_congr (hargs a ha)]
    have hsame : (fun accepted => a.renderAccepted locale accepted properties)
        = fun accepted => a.renderAccepted locale accepted properties' :=
      funext (Accessor.renderAccepted_congr fun template => hproperties a template ha)
    rw [hsame]

/-! ## §3 Compiled registries -/

namespace Compile

/-- **Rendering** by name depends on declared inputs. In two runs of a compiled registry, a key of a contract is
rendered alike when the arguments agree on its parameters, and the properties on the placeholders of the template
that are no parameters: a property has the same accepted value in both runs, or none in both of them. -/
theorem compile_renders_declared {s : Settings} {cs : List Contract} {loader : SourceLoader} {o : CompileOutput}
    (h : compile s cs loader = .ok o) {contract : String} {history history' : List RegistryRequest} {p p' : Provider}
    (hp : o.registry.GivenOut history contract p) (hp' : o.registry.GivenOut history' contract p') :
    ∃ t ∈ o.tables, t.contract = contract ∧ ∀ key locale args args',
      (∀ a, t.accessors.get? key = some a → ∀ q ∈ a.schema,
        q.type.coerce (Json.field? q.name args) = q.type.coerce (Json.field? q.name args')) →
      (∀ a template, t.accessors.get? key = some a → a.select locale = some template →
        ∀ name ∈ template.placeholders, name ∉ a.schema.names →
          ∀ v, o.registry.HasAccepted history name v ↔ o.registry.HasAccepted history' name v) →
      o.registry.answerAfter history (.call p (.renderByName key locale args))
        = o.registry.answerAfter history' (.call p' (.renderByName key locale args')) := by
  -- The providers of the two runs may have different numbers, but have the table of their contract.
  have htable : o.registry.tables.get? contract = some p.table := Registry.table_of_givenOut hp
  have hsame : p'.table = p.table := Option.some.inj ((Registry.table_of_givenOut hp').symm.trans htable)
  obtain ⟨hmem, hcontract⟩ := (Registry.get?_tables_ofTables (contracts_nodup_of_compile h)).mp htable
  refine ⟨p.table, hmem, hcontract, fun key locale args args' hargs hproperties => ?_⟩
  have hrendered := Table.renderByName_congr hargs fun a template ha hselect name hname hother =>
    Registry.properties_congr hp hp' (hproperties a template ha hselect name hname hother)
  show RegistryAnswer.called (.text (p.table.renderByName key locale args _))
    = .called (.text (p'.table.renderByName key locale args' _))
  rw [hsame, hrendered]

namespace Greetings

/-- The property is set to a value of its type at last, and a property is set that is named like the parameter. -/
def noisyRun : List RegistryRequest :=
  [.provider "app.Greetings", .set "brand" (.bool true), .set "name" (.string "Bob"), .set "brand" (.string "Acme")]

def quietRun : List RegistryRequest := [.provider "app.Greetings", .set "brand" (.string "Acme")]

end Greetings

/-- Neither the property named like the parameter nor the further argument is shown, and the braces in the text of the
argument are no placeholder. -/
theorem compile_renders_declared_greeting :
    ∃ o p p', compile Greetings.settings [Greetings.contract] Greetings.sources = .ok o ∧
      o.registry.GivenOut Greetings.noisyRun "app.Greetings" p ∧
      o.registry.GivenOut Greetings.quietRun "app.Greetings" p' ∧
      o.registry.answerAfter Greetings.noisyRun (.call p (.renderByName "greeting" "en-US"
          [("guest", .null), ("name", .string "{brand}")]))
        = o.registry.answerAfter Greetings.quietRun (.call p' (.renderByName "greeting" "en-US"
          [("name", .string "{brand}")])) ∧
      o.registry.answerAfter Greetings.quietRun (.call p' (.renderByName "greeting" "en-US"
          [("name", .string "{brand}")])) = .called (.text (.ok "Hello {brand} of Acme")) := by
  obtain ⟨o, ho, t, a, htables, ha, hschema, hselect, hp, htext⟩ : ∃ o,
      compile Greetings.settings [Greetings.contract] Greetings.sources = .ok o ∧ ∃ t a,
        o.tables = [t] ∧ t.accessors.get? "greeting" = some a ∧
        a.schema = [⟨"name", .builtin .text false⟩] ∧ a.select "en-US" = some ⟨"Hello {name} of {brand}"⟩ ∧
        o.registry.answerAfter [] (.provider "app.Greetings")
          = .provider (.ok (o.registry.newProvider Registry.fresh t)) ∧
        o.registry.answerAfter Greetings.quietRun (.call (o.registry.newProvider Registry.fresh t)
          (.renderByName "greeting" "en-US" [("name", .string "{brand}")]))
          = .called (.text (.ok "Hello {brand} of Acme")) :=
    ⟨_, rfl, _, _, rfl, rfl, rfl, rfl, rfl, rfl⟩
  have hnoisy : o.registry.GivenOut Greetings.noisyRun "app.Greetings" _ := ⟨[], _, rfl, hp⟩
  have hquiet : o.registry.GivenOut Greetings.quietRun "app.Greetings" _ := ⟨[], _, rfl, hp⟩
  obtain ⟨t', ht', -, hsame⟩ := compile_renders_declared ho hnoisy hquiet
  rw [htables] at ht'
  obtain rfl := List.mem_singleton.mp ht'
  -- The runs agree on the declared parameter `name` and on `brand`, the only other name of the template.
  refine ⟨o, _, _, ho, hnoisy, hquiet, hsame _ _ _ _ (fun a' ha' q hq => ?_) ?_, htext⟩
  · obtain rfl : a = a' := Option.some.inj (ha.symm.trans ha')
    rw [hschema] at hq
    obtain rfl := List.mem_singleton.mp hq
    rfl
  · intro a' template ha' hselect' name hname hother v
    obtain rfl : a = a' := Option.some.inj (ha.symm.trans ha')
    obtain rfl := Option.some.inj (hselect.symm.trans hselect')
    rw [hschema] at hother
    have hbrand : name = "brand" := by
      have hmem : name ∈ ["name", "brand"] := hname
      simpa using (List.mem_cons.mp hmem).resolve_left fun h => hother (h ▸ List.mem_cons_self)
    have hvalue : Registry.valueAfter Greetings.noisyRun name = Registry.valueAfter Greetings.quietRun name := by
      rw [hbrand]
      rfl
    simp only [Registry.HasAccepted, hvalue]

end Compile

end Phrasebook
