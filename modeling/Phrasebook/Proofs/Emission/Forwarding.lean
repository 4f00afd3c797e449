import Phrasebook.Proofs.Compile.Forwarding
import Phrasebook.Proofs.Emission.Accessor

/-!
# The functions of methods

The function of a method calls the function of the accessor of its key. It has a parameter for each one of the method,
and passes on the locale, the properties and the arguments of the key, with the types that are asked for there.

## Layers

- `FunctionCode.read?`, `CallCode.read?`: a function and a call, as they are read.
- `FunctionCode.read?_of_lex`: the name, the parameters and the body of a function.
- `FunctionCode.Forwards`: a function calls another one with parameters of its own, of the types that are asked for.
- `Forwarding.Carries.forwards`: so does the function of a method.
-/

namespace Phrasebook

open Phrasebook.Name Phrasebook.Text

/-! ## §1 Reading -/

/-- A function as it is read: its parameters with the tokens of their types, and the tokens of its body. -/
structure FunctionCode where
  ident : String
  parameters : List (String × List Token)
  body : List Token

/-- A parameter with the tokens of its type. -/
def parameter? : List Token → Option (String × List Token)
  | .word name :: .mark ':' :: type => some (name, type)
  | _ => none

/-- The function that makes a text, of which the code is given. -/
def FunctionCode.read? (code : String) : Option FunctionCode :=
  match behind? "pub fn" (lex code.toList) with
  | some (.word ident :: .mark '(' :: ts) =>
    ((commaParts 0 (ts.takeWhile fun t => t ≠ .mark ')')).mapM parameter?).bind fun parameters =>
      (behind? ") -> String \x7b" (ts.dropWhile fun t => t ≠ .mark ')')).bind fun body =>
        (before? '}' body).map fun body => ⟨ident, parameters, body⟩
  | _ => none

/-- A call of a function of the module around, with names for arguments. -/
structure CallCode where
  function : String
  arguments : List String

def name? : List Token → Option String
  | [.word name] => some name
  | _ => none

/-- The call that a body consists of. -/
def CallCode.read? : List Token → Option CallCode
  | .word "super" :: .mark ':' :: .mark ':' :: .word function :: .mark '(' :: ts =>
    (before? ')' ts).bind fun ts => ((commaParts 0 ts).mapM name?).map fun arguments => ⟨function, arguments⟩
  | _ => none

/-- The first line of a function is read as its name and its parameters. -/
theorem FunctionCode.read?_of_lex {code ident : String} {ps : List FunctionParameter} {body : List Token}
    (hident : isWord ident.toList = true) (hps : ∀ p ∈ ps, p.Readable) (hne : ps ≠ [])
    (hlex : lex code.toList = lex (functionHead ident ps).toList ++ (body ++ [.mark '}'])) :
    read? code = some ⟨ident, ps.map fun p => (p.ident, lex p.type.toList), body⟩ := by
  have hparts : ∀ part ∈ ps.map FunctionParameter.tokens, Closed part := by
    intro part hpart
    obtain ⟨p, hp, rfl⟩ := List.mem_map.mp hpart
    exact closed_of_isSimple (simple_of_mem_tokens (hps p hp))
  have hread : (ps.map FunctionParameter.tokens).mapM parameter?
      = some (ps.map fun p => (p.ident, lex p.type.toList)) := by
    rw [List.mapM_map]
    exact mapM_eq_some fun p _ => rfl
  rw [read?, hlex, (lex_functionHead hident hps).2, List.append_assoc, behind?_append, List.cons_append,
    List.cons_append, List.append_assoc]
  simp only [AccessorFunction.takeWhile_parameters hps, AccessorFunction.dropWhile_parameters hps]
  rw [commaParts_intercalate (by simpa using hne) hparts, hread, Option.bind_some, behind?_append, Option.bind_some,
    before?_append]
  rfl

/-- A call is read as its function and its arguments. -/
theorem CallCode.read?_callText {function : String} {arguments : List String}
    (hfunction : isWord function.toList = true) (hwords : ∀ x ∈ arguments, isWord x.toList = true)
    (hne : arguments ≠ []) :
    Complete (callText ("super::" ++ function) arguments).toList ∧
      read? (lex (callText ("super::" ++ function) arguments).toList) = some ⟨function, arguments⟩ := by
  obtain ⟨hsuper, hsuperLex⟩ := lex_super hfunction
  obtain ⟨hcall, hlex⟩ := lex_callText hsuper fun x hx => stoppable_of_isWord (hwords x hx)
  refine ⟨hcall, ?_⟩
  have htokens : (arguments.map fun x => lex x.toList) = arguments.map fun x => [.word x] := by
    apply List.map_congr_left
    intro x hx
    rw [lex_of_isWord (hwords x hx), String.ofList_toList]
  -- The arguments are single words, so they are told apart by the commas.
  have hparts : ∀ part ∈ arguments.map fun x => [Token.word x], Closed part := by
    intro part hpart
    obtain ⟨x, -, rfl⟩ := List.mem_map.mp hpart
    exact closed_of_isSimple (by simp [isSimple])
  have hread : (arguments.map fun x => [Token.word x]).mapM name? = some arguments := by
    rw [List.mapM_map]
    exact (mapM_eq_some fun x _ => rfl).trans (congrArg some (List.map_id' arguments))
  rw [hlex, hsuperLex, htokens]
  show ((before? ')' _).bind fun ts => _) = _
  rw [before?_append, Option.bind_some, commaParts_intercalate (by simpa using hne) hparts, hread]
  rfl

/-- The function of an accessor has its name, the parameters that all accessors have and those of the key. -/
theorem AccessorFunction.read?_ofAccessor {a : Accessor} (hident : a.ident = accessor a.key)
    (properties : KeyMap ParamType) :
    ∃ body, FunctionCode.read? (ofAccessor properties a).item
      = some ⟨a.function, (ofAccessor properties a).parameters.map fun p => (p.ident, lex p.type.toList), body⟩ := by
  have hreadable := @readable_ofAccessor a properties hident
  exact ⟨_, FunctionCode.read?_of_lex hreadable.ident hreadable.parameters (List.cons_ne_nil _ _) (lex_item hreadable)⟩

namespace MethodFunction

/-- The names and types in a function can be read in its code. -/
structure Readable (f : MethodFunction) : Prop where
  /-- It has a name. -/
  ident : isWord f.ident.toList = true
  parameters : ∀ p ∈ f.parameters, p.Readable
  function : isWord f.function.toList = true
  arguments : ∀ x ∈ f.arguments, isWord x.toList = true

/-- The code of a function, without the line that documents it. -/
def item (f : MethodFunction) : String := CodeLine.writtenAll (f.lines.drop 1)

/-- The body of the function is a call of the function of the accessor. -/
theorem read?_item {f : MethodFunction} (h : f.Readable) (hparameters : f.parameters ≠ [])
    (harguments : f.arguments ≠ []) :
    ∃ body, FunctionCode.read? f.item = some ⟨f.ident, f.parameters.map fun p => (p.ident, lex p.type.toList), body⟩ ∧
      CallCode.read? body = some ⟨f.function, f.arguments⟩ := by
  obtain ⟨hcall, hread⟩ := CallCode.read?_callText h.function h.arguments harguments
  obtain ⟨hhead, -⟩ := lex_functionHead h.ident h.parameters
  have hclose : Complete ("\x7d".toList) := fun rest => rfl
  have hlines : f.lines.drop 1 = [⟨2, functionHead f.ident f.parameters⟩,
      ⟨3, callText ("super::" ++ f.function) f.arguments⟩, ⟨2, "\x7d"⟩] := rfl
  have hcomplete : ∀ l ∈ f.lines.drop 1, Complete l.code.toList := by
    rw [hlines]
    simp only [List.forall_mem_cons]
    exact ⟨hhead, hcall, hclose, fun l hl => by cases hl⟩
  refine ⟨_, FunctionCode.read?_of_lex h.ident h.parameters hparameters ?_, hread⟩
  rw [item, lex_writtenAll hcomplete, hlines, List.flatMap_cons, List.flatMap_cons, List.flatMap_singleton]
  rfl

end MethodFunction

/-! ## §2 Calls that fit -/

/-- A function consists of a call of another one that fits: it passes on parameters of its own, with the types that the
other one asks for. -/
structure FunctionCode.Forwards (f g : FunctionCode) (call : CallCode) : Prop where
  body : CallCode.read? f.body = some call
  function : call.function = g.ident
  /-- A name stands for one parameter only. -/
  distinct : (f.parameters.map (·.1)).Nodup
  typed : List.Forall₂ (fun x p => (x, p.2) ∈ f.parameters) call.arguments g.parameters

/-- What the function of a method takes, and what it passes on to the function of the key. -/
structure Method.PassesOn (m : Method) (schema : ParameterList) (f : FunctionCode) (call : CallCode) : Prop where
  /-- Behind the properties it has the parameters of the method, in their order. -/
  parameters : f.parameters = ("props", lex "&Properties".toList) ::
    m.parameters.map fun q => (ofParameter q.name, lex q.hostType.toList)
  /-- It passes on the locale, the properties and one argument for each parameter of the key. -/
  arguments : ∃ l ∈ m.parameters, l.role = .locale ∧
    call.arguments = ofParameter l.name :: "props" :: schema.map fun p => ofParameter p.name
  locale : ∀ q ∈ m.parameters, q.role = .locale → q.hostType = "Locale"
  /-- An argument is the parameter of the method that has the name, and has the type of the key's parameter. -/
  carried : ∀ p ∈ schema, ∃ q ∈ m.parameters, q.role = .argument ∧ q.name = p.name ∧ q.hostType = p.type.borrowedType
  /-- Nothing is asked of the other parameters, which are not passed on. -/
  others : ∀ q ∈ m.parameters, q.role ≠ .locale → (∀ p ∈ schema, p.name ≠ q.name) →
    q.hostType = "impl Sized" ∧ ofParameter q.name ∉ call.arguments

/-! ## §3 Methods -/

/-- The type of a parameter of a method can be read. -/
theorem MethodParameter.readable_hostType (q : MethodParameter) :
    Stoppable q.hostType.toList ∧ ∀ x ∈ lex q.hostType.toList, isSimple x = true := by
  have hlocale : Stoppable "Locale".toList := stoppable_of_isWord rfl
  have hany : Stoppable "impl Sized".toList := by
    have hstart : Complete ("impl ".toList) := fun rest => rfl
    have hword : Stoppable ("Sized".toList) := stoppable_of_isWord rfl
    exact hstart.append_stoppable hword
  unfold hostType
  split
  · exact ⟨hlocale, by decide⟩
  · split
    · exact lex_borrowedType _
    · exact ⟨hany, by decide⟩
  · exact ⟨hany, by decide⟩

namespace Forwarding.Carries

variable {f : Forwarding} {m : Method} {a : Accessor} (h : f.Carries m a.schema)
include h

theorem readable (hident : a.ident = accessor a.key) : (MethodFunction.ofForwarding f a).Readable where
  ident := isWord_escaped (isIdentifier_snake f.name)
  parameters := by
    rw [MethodFunction.parameters_ofForwarding h]
    intro p hp
    rcases List.mem_cons.mp hp with rfl | hp
    · exact AccessorFunction.readable_propertiesParameter
    · obtain ⟨q, -, rfl⟩ := List.mem_map.mp hp
      exact ⟨isWord_ofParameter q.name, q.readable_hostType⟩
  function := by
    show isWord (escaped a.ident).toList = true
    rw [hident]
    exact isWord_escaped (isIdentifier_accessor a.key)
  arguments := by
    obtain ⟨l, -, -, harguments⟩ := MethodFunction.arguments_ofForwarding h
    rw [harguments]
    intro x hx
    rcases List.mem_cons.mp hx with rfl | hx
    · exact isWord_ofParameter l.name
    · rcases List.mem_cons.mp hx with rfl | hx
      · rfl
      · obtain ⟨p, -, rfl⟩ := List.mem_map.mp hx
        exact isWord_ofParameter p.name

/-- The parameters in the function of a method have distinct names. -/
theorem nodup_idents : ((MethodFunction.ofForwarding f a).parameters.map (·.ident)).Nodup := by
  rw [MethodFunction.parameters_ofForwarding h, List.map_cons, List.map_map, List.nodup_cons]
  refine ⟨fun hmem => ?_, h.distinct⟩
  obtain ⟨q, -, hq⟩ := List.mem_map.mp hmem
  have hprops : ofParameter q.name = "props" := hq
  exact ofParameter_not_mem_taken q.name (hprops ▸ by decide)

/-- The argument of the name of a parameter of the key. -/
theorem exists_argument {p : Parameter} (hp : p ∈ a.schema) :
    ∃ q ∈ m.parameters, q.role = .argument ∧ q.name = p.name ∧ q.hostType = p.type.borrowedType := by
  obtain ⟨i, -, q, hq, hrole, hname⟩ := exists_of_forall₂_of_mem h.arguments hp
  have hmem := List.mem_of_getElem? hq
  refine ⟨q, hmem, hrole, hname, ?_⟩
  rw [MethodParameter.hostType, hrole, h.parse_of_name hmem hrole hp hname]

/-- The name of a parameter that is ignored is none of those that are passed on. -/
theorem not_mem_arguments {q : MethodParameter} (hq : q ∈ m.parameters) (hrole : q.role = .ignored) :
    ofParameter q.name ∉ (MethodFunction.ofForwarding f a).arguments := by
  -- Another parameter of the method with this name would be the same one, which has another role.
  have hother : ∀ q' ∈ m.parameters, q'.role ≠ .ignored → ofParameter q.name ≠ ofParameter q'.name := by
    intro q' hq' hrole' heq
    rw [List.inj_on_of_nodup_map h.distinct hq hq' heq] at hrole
    exact hrole' hrole
  obtain ⟨l, hl, hlrole, harguments⟩ := MethodFunction.arguments_ofForwarding h
  rw [harguments, List.mem_cons, List.mem_cons, List.mem_map, not_or, not_or]
  refine ⟨hother l hl (by rw [hlrole]; decide), fun heq => ?_, fun hmem => ?_⟩
  · exact ofParameter_not_mem_taken q.name (heq ▸ by decide)
  · obtain ⟨p, hp, heq⟩ := hmem
    obtain ⟨q', hq', hrole', hname, -⟩ := h.exists_argument hp
    rw [← hname] at heq
    exact hother q' hq' (by rw [hrole']; decide) heq.symm

/-- **Functions of methods** take the parameters of the method, and pass on those of the key to its accessor. -/
theorem forwards (hident : a.ident = accessor a.key) (properties : KeyMap ParamType) :
    ∃ function call callee,
      FunctionCode.read? (MethodFunction.ofForwarding f a).item = some function ∧
      FunctionCode.read? (AccessorFunction.ofAccessor properties a).item = some callee ∧
      function.ident = ofMethod m.name ∧ function.Forwards callee call ∧ m.PassesOn a.schema function call := by
  obtain ⟨l, hl, hlrole, harguments⟩ := MethodFunction.arguments_ofForwarding h
  have hparameters := MethodFunction.parameters_ofForwarding h
  obtain ⟨body, hfunction, hbody⟩ := MethodFunction.read?_item (h.readable hident)
    (by rw [hparameters]; exact List.cons_ne_nil _ _) (by rw [harguments]; exact List.cons_ne_nil _ _)
  obtain ⟨_, hcallee⟩ := AccessorFunction.read?_ofAccessor hident properties
  have htaken : (MethodFunction.ofForwarding f a).parameters.map (fun p => (p.ident, lex p.type.toList))
      = ("props", lex "&Properties".toList) ::
        m.parameters.map fun q => (ofParameter q.name, lex q.hostType.toList) := by
    rw [hparameters, List.map_cons, List.map_map]
    rfl
  have hhas : ∀ q ∈ m.parameters, (ofParameter q.name, lex q.hostType.toList)
      ∈ (MethodFunction.ofForwarding f a).parameters.map fun p => (p.ident, lex p.type.toList) := by
    intro q hq
    rw [htaken]
    exact List.mem_cons_of_mem _ (List.mem_map_of_mem (f := fun q : MethodParameter => (ofParameter q.name, _)) hq)
  refine ⟨_, ⟨_, (MethodFunction.ofForwarding f a).arguments⟩, _, hfunction, hcallee, congrArg ofMethod h.name,
    ⟨hbody, rfl, ?_, ?_⟩, ⟨htaken, ⟨l, hl, hlrole, harguments⟩, ?_, fun p => h.exists_argument, ?_⟩⟩
  · have hnodup := h.nodup_idents
    rwa [List.map_map]
  · -- What is asked for is a locale, the properties and the parameters of the key; each one is passed on by its name.
    show List.Forall₂ _ (MethodFunction.ofForwarding f a).arguments _
    rw [harguments]
    refine .cons ?_ (.cons (by rw [htaken]; exact List.mem_cons_self) ?_)
    · have hlocale := hhas l hl
      rwa [MethodParameter.hostType, hlrole] at hlocale
    · rw [List.map_map, forall₂_map_same_iff]
      intro p hp
      obtain ⟨q, hq, -, hname, htype⟩ := h.exists_argument hp
      have hargument := hhas q hq
      rwa [hname, htype] at hargument
  · intro q _ hrole
    rw [MethodParameter.hostType, hrole]
  · intro q hq hother hnot
    -- An argument would be a parameter of the key.
    have hignored : q.role = .ignored := by
      cases hrole : q.role with
      | locale => exact absurd hrole hother
      | argument =>
        obtain ⟨p, hp, hname, -⟩ := h.exists_parameter hq hrole
        exact absurd hname (hnot p hp)
      | ignored => rfl
    exact ⟨by rw [MethodParameter.hostType, hignored], h.not_mem_arguments hq hignored⟩

end Forwarding.Carries

end Phrasebook
