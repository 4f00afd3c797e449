import Phrasebook.Config.Validation
import Phrasebook.Proofs.Compile.Calls
import Phrasebook.Proofs.Compile.Selection
import Phrasebook.Proofs.Registry.Inputs

/-!
# Parameters in templates

A template refers to a parameter by its name between braces, and is scanned for identifiers only. The names of
parameters and properties may be others, and what stands between braces then stays as it is written. A parameter that
is called by an identifier is shown wherever a template refers to it.

## Layers

- `Accessor.eq_of_checkArguments`, `Accessor.eq_of_namedArguments`: the values that are shown are those that are given.
- `Accessor.render_filled`: a template with a reference to a parameter shows the value of the parameter there.
- `compile_substitutes`: so does every accessor of a compilation.
-/

namespace Phrasebook

/-! ## §1 Values that are shown -/

theorem ParamType.getD_of_coerce_eq_ok {t : ParamType} {given : Option Json} {v : Json}
    (h : t.coerce given = .ok v) : v = given.getD .null := by
  cases given with
  | some w => exact t.eq_of_coerce_eq_ok h
  | none =>
    rw [coerce] at h
    split at h
    · exact (Except.ok.inj h).symm
    · cases h

/-- Of distinct names, each is found at its place. -/
theorem ParameterList.position?_of_nodup {ps : ParameterList} (hnodup : ps.names.Nodup) {i : Nat} {p : Parameter}
    (h : ps[i]? = some p) : ps.position? p.name = some i := by
  obtain ⟨hi, rfl⟩ := List.getElem?_eq_some_iff.mp h
  rw [position?, List.findIdx?_eq_some_iff_getElem]
  refine ⟨hi, beq_self_eq_true _, fun j hj => ?_⟩
  have hne : ps[j].name ≠ ps[i].name :=
    List.pairwise_iff_getElem.mp (List.pairwise_map.mp hnodup) j i (Nat.lt_trans hj hi) hi hj
  simpa using hne

namespace Accessor

variable {a : Accessor}

theorem coerceArgument_eq_ok {p : Parameter} {given : Option Json} {v : Json}
    (h : a.coerceArgument p given = .ok v) : v = given.getD .null :=
  p.type.getD_of_coerce_eq_ok (mapError_eq_ok.mp h)

/-- Arguments in order that are accepted are as many as the parameters, and are shown as they are. -/
theorem eq_of_checkArguments {args values : List Json} (h : a.checkArguments args = .ok values) :
    args.length = a.schema.length ∧ values = args := by
  unfold checkArguments at h
  split at h
  · cases h
  · rename_i hlength
    have hlength : args.length = a.schema.length := not_not.mp hlength
    have hall : List.Forall₂ (fun x v => x.2 = v) (a.schema.zip args) values :=
      (traverse_eq_ok_iff.mp h).imp fun x v hv => (coerceArgument_eq_ok hv).symm
    rw [← List.forall₂_map_left_iff (R := (· = ·)), List.forall₂_eq_eq_eq, List.map_snd_zip (Nat.le_of_eq hlength)] at hall
    exact ⟨hlength, hall.symm⟩

/-- An argument by name is shown as it is, and as null where there is none. -/
theorem eq_of_namedArguments {named : List (String × Json)} {values : List Json}
    (h : a.namedArguments named = .ok values) :
    values = a.schema.map fun p => (Json.field? p.name named).getD .null := by
  have hall : List.Forall₂ (fun (p : Parameter) v => (Json.field? p.name named).getD .null = v) a.schema values :=
    (traverse_eq_ok_iff.mp h).imp fun p v hv => (coerceArgument_eq_ok hv).symm
  rw [← List.forall₂_map_left_iff (R := (· = ·)), List.forall₂_eq_eq_eq] at hall
  exact hall.symm

/-! ## §2 References -/

/-- The text of a template in which a value stands between two texts. -/
def filled (a : Accessor) (values : List Json) (properties : PropertySource) (before after : String) (v : Json) :
    String :=
  (Template.mk before).render (a.resolve values properties) ++ v.display
    ++ (Template.mk after).render (a.resolve values properties)

/-- A reference to a parameter shows the value at its place. -/
theorem render_filled (hnodup : a.schema.names.Nodup) {i : Nat} {p : Parameter} (hp : a.schema[i]? = some p)
    (hname : isIdentifier p.name.toList = true) {values : List Json} {v : Json} (hv : values[i]? = some v)
    (properties : PropertySource) (before after : String) :
    (Template.mk (before ++ (Segment.placeholder p.name).written ++ after)).render (a.resolve values properties)
      = a.filled values properties before after v := by
  have hshown : Template.renderSegment (a.resolve values properties) (.placeholder p.name) = v.display := by
    simp only [Template.renderSegment, resolve, ParameterList.position?_of_nodup hnodup hp, hv, Option.map_some,
      Option.getD_some]
  rw [Template.render_append hname, hshown, filled]

end Accessor

/-- In every way to render a key, the value of the parameter at a place stands between two texts. -/
structure Table.Substitutes (t : Table) (methods : List Method) (a : Accessor) (locale : String) (i : Nat)
    (p : Parameter) (before after : String) : Prop where
  /-- With arguments in order, it is the one at the place. -/
  inOrder : ∀ args values properties, a.checkArguments args = .ok values →
    ∃ v, args[i]? = some v ∧ t.render a.key locale args properties = .ok (a.filled args properties before after v)
  /-- With arguments by name, it is the one of its name, or null. -/
  byName : ∀ named values properties, a.namedArguments named = .ok values →
    t.renderByName a.key locale named properties
      = .ok (a.filled values properties before after ((Json.field? p.name named).getD .null))
  /-- With all arguments of a method, it is the one of the argument parameter of its name. -/
  ofMethod : ∀ m ∈ methods, m.keyName = a.key → ∃ f, t.methods.get? m.name = some f ∧
    ∀ args values properties, args.length = m.parameters.length → Table.localeOf f args = .ok locale →
      a.checkArguments (f.arguments.filterMap fun j => args[j]?) = .ok values →
      ∃ q v, (q, v) ∈ m.parameters.zip args ∧ q.role = .argument ∧ q.name = p.name ∧
        t.invoke m.name args properties = .ok (a.filled values properties before after v)

namespace Compile

/-! ## §3 Compilations -/

namespace ContractRun

variable {s : Settings} {loader : SourceLoader}

/-- An accessor whose text refers to a parameter by an identifier shows its value there. -/
theorem substitutes (r : ContractRun s loader) {key : String} {a : Accessor}
    (ha : r.table.accessors.get? key = some a) {locale : String} (hlocale : locale ∈ s.locales) {i : Nat}
    {p : Parameter} (hp : a.schema[i]? = some p) (hname : isIdentifier p.name.toList = true) {before after : String}
    (hselect : a.select locale = some ⟨before ++ (Segment.placeholder p.name).written ++ after⟩) :
    r.table.Substitutes r.contract.methods a locale i p before after := by
  obtain rfl := r.key_of_get? ha
  have hnodup := List.Nodup.of_map _ (Table.idents_nodup_of_get? r.generated ha)
  have hordered : ∀ args values properties, a.checkArguments args = .ok values → ∃ v, args[i]? = some v ∧
      r.table.render a.key locale args properties = .ok (a.filled args properties before after v) := by
    intro args values properties hargs
    obtain ⟨hlength, rfl⟩ := Accessor.eq_of_checkArguments hargs
    have hi : i < values.length := by
      rw [hlength]
      exact (List.getElem?_eq_some_iff.mp hp).1
    have hvalue : values[i]? = some values[i] := List.getElem?_eq_getElem hi
    have hrendered := (r.render_of_select ha hlocale hselect properties).1 values values hargs
    rw [Accessor.render_filled hnodup hp hname hvalue] at hrendered
    exact ⟨values[i], hvalue, hrendered⟩
  refine ⟨hordered, fun named values properties hnamed => ?_, ?_⟩
  · have hvalue : values[i]? = some ((Json.field? p.name named).getD .null) := by
      rw [Accessor.eq_of_namedArguments hnamed, List.getElem?_map, hp, Option.map_some]
    have hrendered := (r.render_of_select ha hlocale hselect properties).2 named values hnamed
    rwa [Accessor.render_filled hnodup hp hname hvalue] at hrendered
  · -- A method takes the arguments in order out of those that it is called with.
    intro m hm hkey
    obtain ⟨f, a', hf, ha', hserves⟩ := r.exists_forwarding hm
    rw [hkey, ha] at ha'
    obtain rfl := Option.some.inj ha'
    refine ⟨f, hf, fun args values properties hlength hof hargs => ?_⟩
    obtain ⟨v, hv, hrendered⟩ := hordered _ values properties hargs
    obtain ⟨-, rfl⟩ := Accessor.eq_of_checkArguments hargs
    have hmem : (p, v) ∈ a.schema.zip (f.arguments.filterMap fun j => args[j]?) := by
      apply List.mem_of_getElem?
      exact List.getElem?_zip_eq_some.mpr ⟨hp, hv⟩
    obtain ⟨q, hq, hrole, hqname⟩ := List.forall₂_zip (Table.forall₂_arguments hserves hlength) hmem
    refine ⟨q, v, hq, hrole, hqname, ?_⟩
    rw [Table.invoke_of_localeOf hf (hlength.trans hserves.parameters.symm) hof, hserves.key, hkey]
    exact hrendered

end ContractRun

/-- **References**: a name between braces is a placeholder exactly when it is an identifier. In a compilation, a locale
with a text of a key selects it; and where a selected text refers to a parameter of the key by an identifier, the value
of the parameter is shown. -/
theorem compile_substitutes {s : Settings} {cs : List Contract} {loader : SourceLoader} {o : CompileOutput}
    (h : compile s cs loader = .ok o) :
    (∀ name : String, (Template.mk (Segment.placeholder name).written).segments = [.placeholder name] ↔
      isIdentifier name.toList = true) ∧
    List.Forall₂ (fun c t => ∀ key a, t.accessors.get? key = some a → a.key = key ∧ ∀ locale ∈ s.locales,
      (∀ text, phraseAt? loader (c.fileName s.package) key locale = some text → a.select locale = some ⟨text⟩) ∧
      ∀ (i : Nat) (p : Parameter), a.schema[i]? = some p → isIdentifier p.name.toList = true → ∀ before after,
        a.select locale = some ⟨before ++ (Segment.placeholder p.name).written ++ after⟩ →
          t.Substitutes c.methods a locale i p before after)
      cs o.tables := by
  -- What braces mean does not depend on the compilation; the rest is said of each contract on its own.
  refine ⟨Template.segments_written_iff, ?_⟩
  obtain ⟨runs, rfl, htables⟩ := exists_runs h
  have hdefault := (Settings.validate_eq_ok_iff.mp (validate_of_compile h)).1
  rw [htables, List.forall₂_map_left_iff, List.forall₂_map_right_iff, List.forall₂_same]
  intro r _ key a ha
  refine ⟨r.key_of_get? ha, fun locale hlocale => ⟨fun text htext => ?_, fun i p hp hname before after hselect => ?_⟩⟩
  · exact r.select_of_phrase hdefault ha hlocale htext
  · exact r.substitutes ha hlocale hp hname hselect

/-- The property that stands behind the parameter has no value, and is written back. -/
theorem compile_substitutes_greeting :
    ∃ o, compile Greetings.settings [Greetings.contract] Greetings.sources = .ok o ∧ ∃ t, o.tables = [t] ∧
      t.renderByName "greeting" "en-US" [("name", .string "Ada")] (fun _ => none) = .ok "Hello Ada of {brand}" := by
  obtain ⟨o, ho, t, a, htables, ha, hschema, hselect, hnamed, htext⟩ : ∃ o,
      compile Greetings.settings [Greetings.contract] Greetings.sources = .ok o ∧ ∃ t a,
        o.tables = [t] ∧ t.accessors.get? "greeting" = some a ∧ a.schema[0]? = some ⟨"name", .builtin .text false⟩ ∧
        a.select "en-US" = some ⟨"Hello " ++ (Segment.placeholder "name").written ++ " of {brand}"⟩ ∧
        a.namedArguments [("name", .string "Ada")] = .ok [.string "Ada"] ∧
        a.filled [.string "Ada"] (fun _ => none) "Hello " " of {brand}" (.string "Ada") = "Hello Ada of {brand}" :=
    ⟨_, rfl, _, _, rfl, rfl, rfl, rfl, rfl, rfl⟩
  obtain ⟨t', ts, hall, hts, htables'⟩ := List.forall₂_cons_left_iff.mp (compile_substitutes ho).2
  obtain rfl := List.forall₂_nil_left_iff.mp hts
  obtain rfl : t = t' := List.singleton_injective (htables.symm.trans htables')
  obtain ⟨hkey, hlocale⟩ := hall _ _ ha
  have hshown := ((hlocale "en-US" (by decide)).2 0 _ hschema (by decide) _ _ hselect).byName _ _ (fun _ => none) hnamed
  rw [hkey] at hshown
  exact ⟨o, ho, t, htables, hshown.trans (congrArg Except.ok htext)⟩

/-- A name with a hyphen is accepted of a parameter and of a property, and cannot be referred to: nothing is reported
of the reference, which is written back although there is a value. -/
theorem compile_leaves_hyphen :
    ParameterList.parse "user-name:text" = .ok [⟨"user-name", .builtin .text false⟩] ∧
      (Declaration.ofMethod ⟨"hello", none, [⟨"locale", "Locale", .locale⟩, ⟨"user-name", "text", .argument⟩]⟩).map
          (·.parameters) = .ok [⟨"user-name", .builtin .text false⟩] ∧
      Config.validate { Config.default with properties := .ofList [("user-name", "text")] } = .ok () ∧
      (Template.mk "{user-name}").segments = [.literal "{user-name}"] ∧
      ∃ o t, compile ⟨defaultManagerName, ["en-US"], "en-US", "app", .empty⟩ [⟨"app.Greetings", none, []⟩]
          (fun _ _ => .found "en_us/greetings.yaml" (.branch [("hello", .leaf ⟨"Hi {user-name}", some "user-name:text"⟩)]))
          = .ok o ∧ o.tables = [t] ∧ o.issues = [] ∧
        t.renderByName "hello" "en-US" [("user-name", .string "Ann")] (fun _ => none) = .ok "Hi {user-name}" :=
  ⟨rfl, rfl, rfl, by decide, _, _, rfl, rfl, rfl, rfl⟩

end Compile

end Phrasebook
