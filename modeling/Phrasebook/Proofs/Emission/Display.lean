import Phrasebook.Proofs.Emission.Expression
import Phrasebook.Proofs.Emission.Support

/-!
# Shown arguments

The text that the generated module puts in the place of an argument, compared with the text that the table puts
there. They are the same but for numbers: the generated module writes a number of a parameter of type `float` as a
plain decimal, and the table writes every number as the data format does.

## Layers

- `shownCode?`: how a value is shown, read off the code that shows it; `shownBy?_call?` and `shownProperty_call?` say
  that the functions of the support code show it so.
- `emittedText?`: the text of a value that is read for a parameter.
- `emittedText?_eq_display_iff`: when the text is that of the table.
-/

namespace Phrasebook

open Phrasebook.Name

/-! ## §1 Shown values -/

/-- The text that a function of the support code shows, by its name. -/
def shownBy? (helper : String) : HostArgument → Option String
  | .plain (.value v) => if helper = "show_value" then some v.display else none
  | .plain _ => none
  | .optional none => if helper = "show_opt" ∨ helper = "show_opt_value" then some "null" else none
  | .optional (some (.value v)) =>
    if helper = "show_opt" then some v.compact
    else if helper = "show_opt_value" then some v.display
    else none
  | .optional (some x) => if helper = "show_opt" then some x.display else none

/-- The text that code shows for an argument with a name. -/
def shownCode? (ident : String) (a : HostArgument) : List Token → Option String
  | [.word x] => if x = ident then
      match a with
      | .plain v => some v.display
      | .optional _ => none
    else none
  | [.word "super", .mark ':', .mark ':', .word helper, .mark '(', .word x, .mark ')'] =>
    if x = ident then shownBy? helper a else none
  | _ => none

/-- The text that the generated module puts in the place of a parameter, when a value is given for it. -/
def emittedText? (ident : String) (t : ParamType) (v : Json) : Option String := do
  let read ← reader? t.reader
  let argument ← readArgument? t.helper read (some v)
  shownCode? ident (← argument) (lex (FormatArgument.shown ident t).toList)

/-! ## §2 Functions that show -/

section Support

open CodeValue SupportCode

/-- **Shown parameters**: what a function is said to show of an argument, the function of its name in the support code
makes of it. -/
theorem shownBy?_call? {helper : String} {a : HostArgument} {text : String} (h : shownBy? helper a = some text) :
    supportCode.call? callDepth helper [ofArgument a] = some (.plain (.text text)) := by
  unfold shownBy? at h
  -- The split follows the forms of an argument, and each form has its own function.
  split at h
  · rename_i v
    obtain ⟨rfl, rfl⟩ := Option.ite_some_none_eq_some.mp h
    exact call?_showValue within_supportCode 12 v
  · cases h
  · obtain ⟨hhelper, rfl⟩ := Option.ite_some_none_eq_some.mp h
    rcases hhelper with rfl | rfl
    · exact call?_showOpt within_supportCode 12 none
    · exact call?_showOptValue within_supportCode 9 none
  · rename_i v
    split_ifs at h with hopt hvalue
    · obtain rfl := Option.some.inj h
      rw [hopt]
      exact call?_showOpt within_supportCode 12 (some (.value v))
    · obtain rfl := Option.some.inj h
      rw [hvalue]
      exact call?_showOptValue within_supportCode 9 (some v)
  · rename_i x _
    obtain ⟨rfl, rfl⟩ := Option.ite_some_none_eq_some.mp h
    exact call?_showOpt within_supportCode 12 (some x)

/-- **Shown properties**: the function that the code of a property names shows its value, or else the placeholder. -/
theorem shownProperty_call? {t : ParamType} {x : Option HostValue}
    (hx : ∀ y, x = some y → ((∃ v, y = .value v) ↔ t.isValue = true)) (placeholder : String) :
    ∃ helper ∈ propertyHelpers, FormatArgument.propertyHelper t = "super::" ++ helper ∧
      supportCode.call? callDepth helper [ofOption x, .plain (.text placeholder)]
        = some (.plain (.text ((x.map HostValue.inFormat).getD placeholder))) := by
  unfold FormatArgument.propertyHelper
  cases hvalue : t.isValue with
  | false =>
    refine ⟨"show_property", by decide, rfl, ?_⟩
    rw [show callDepth = 12 + 4 from rfl, call?_showProperty within_supportCode 12 x placeholder]
    -- Every other value shows itself, whatever its form.
    rcases x with - | (- | - | - | - | v)
    case some.value => exact absurd ((hx _ rfl).mp ⟨v, rfl⟩) (by simp [hvalue])
    all_goals rfl
  | true =>
    refine ⟨"show_property_value", by decide, rfl, ?_⟩
    cases x with
    | none => exact call?_showPropertyValue within_supportCode 9 none placeholder
    | some y =>
      obtain ⟨v, rfl⟩ := (hx y rfl).mpr hvalue
      exact call?_showPropertyValue within_supportCode 9 (some v) placeholder

end Support

/-! ## §3 Code that shows -/

section Code

variable {ident : String} (h : isWord ident.toList = true)
include h

theorem shownCode?_ident (a : HostArgument) :
    shownCode? ident a (lex ident.toList) = match a with
      | .plain v => some v.display
      | .optional _ => none := by
  rw [lex_of_isWord h, String.ofList_toList]
  simp [shownCode?]

theorem shownCode?_helper (helper : String) (hhelper : isWord helper.toList = true) {t : ParamType}
    (hshown : FormatArgument.shown ident t = callText ("super::" ++ helper) [ident]) (a : HostArgument) :
    shownCode? ident a (lex (FormatArgument.shown ident t).toList) = shownBy? helper a := by
  rw [hshown, (lex_helperCall hhelper h).2]
  simp [superTokens, shownCode?]

/-- An argument that is absent is shown as null. -/
theorem shownCode?_absent {t : ParamType} (hnullable : t.nullable = true) :
    shownCode? ident (.optional none) (lex (FormatArgument.shown ident t).toList) = some "null" := by
  cases hvalue : t.isValue with
  | false =>
    rw [shownCode?_helper h "show_opt" (by decide) (by rw [FormatArgument.shown, hnullable, hvalue]; rfl)]
    rfl
  | true =>
    rw [shownCode?_helper h "show_opt_value" (by decide) (by rw [FormatArgument.shown, hnullable, hvalue]; rfl)]
    rfl

/-- A value of the data format is shown as in the table. -/
theorem shownCode?_value {t : ParamType} (hvalue : t.isValue = true) (v : Json) :
    shownCode? ident (if t.nullable then .optional (some (.value v)) else .plain (.value v))
      (lex (FormatArgument.shown ident t).toList) = some v.display := by
  cases hnullable : t.nullable with
  | false =>
    rw [shownCode?_helper h "show_value" (by decide) (by rw [FormatArgument.shown, hnullable, hvalue]; rfl)]
    rfl
  | true =>
    rw [shownCode?_helper h "show_opt_value" (by decide) (by rw [FormatArgument.shown, hnullable, hvalue]; rfl)]
    rfl

/-- Any other value is shown as it is. -/
theorem shownCode?_other {t : ParamType} (hvalue : t.isValue = false) {x : HostValue} (hx : ∀ v, x ≠ .value v) :
    shownCode? ident (if t.nullable then .optional (some x) else .plain x)
      (lex (FormatArgument.shown ident t).toList) = some x.display := by
  cases hnullable : t.nullable with
  | false =>
    have hshown : FormatArgument.shown ident t = ident := by rw [FormatArgument.shown, hnullable, hvalue]
    rw [hshown, shownCode?_ident h]
    rfl
  | true =>
    rw [shownCode?_helper h "show_opt" (by decide) (by rw [FormatArgument.shown, hnullable, hvalue]; rfl)]
    cases x with
    | value v => exact absurd rfl (hx v)
    | _ => rfl

end Code

/-! ## §4 Texts of values -/

theorem JsonNumber.eq_integer_of_asInteger? {n : JsonNumber} {m : Int} (h : n.asInteger? = some m) : n = .integer m := by
  cases n with
  | float x => cases h
  | integer k =>
    have hif : (if minInteger ≤ k && k ≤ maxInteger then some k else none) = some m := h
    split at hif
    · rw [Option.some.inj hif]
    · cases hif

/-- A value that is read by a kind other than those of numbers and of all values has the text that it has in the
table. -/
theorem display_of_read? {kind : Builtin} {v : Json} {x : HostValue} (h : kind.read? v = some x)
    (hfloat : kind ≠ .float) (hany : kind ≠ .any) : (∀ u, x ≠ .value u) ∧ x.display = v.display := by
  cases kind with
  | float => exact absurd rfl hfloat
  | any => exact absurd rfl hany
  -- Each kind reads the values of one form only, and keeps them.
  | integer =>
    cases v with
    | number n =>
      obtain ⟨m, hm, rfl⟩ := Option.map_eq_some_iff.mp h
      rw [JsonNumber.eq_integer_of_asInteger? hm]
      exact ⟨nofun, rfl⟩
    | _ => cases h
  | boolean =>
    cases v with
    | bool b =>
      cases h
      exact ⟨nofun, rfl⟩
    | _ => cases h
  | text =>
    cases v with
    | string s =>
      cases h
      exact ⟨nofun, rfl⟩
    | _ => cases h

/-- Whether the text of a number in the data format is the plain decimal of the number it is read as. -/
def JsonNumber.ShownPlain : JsonNumber → Prop
  | .integer n => (Binary64.ofInt n).wholeValue? = some n.natAbs
  | .float x => x.ShownPlain

/-- Up to `2 ^ 53` integers are. -/
theorem JsonNumber.shownPlain_integer {n : Int} (h : n.natAbs ≤ 2 ^ 53) : (JsonNumber.integer n).ShownPlain :=
  Binary64.wholeValue?_ofInt h

theorem JsonNumber.display_asFloat_iff (n : JsonNumber) :
    (HostValue.float n.asFloat).display = (Json.number n).display ↔ n.ShownPlain := by
  have htexts : (HostValue.float n.asFloat).display = (Json.number n).display ↔ n.asFloat.plainText = n.text :=
    String.ofList_inj
  rw [htexts]
  cases n with
  | integer m => exact Binary64.plainText_ofInt_eq_iff m
  | float x => exact Binary64.plainText_eq_text_iff x

/-! ## §5 Arguments -/

section Argument

variable {ident : String} {t : ParamType} {v : Json}

theorem emittedText?_eq :
    emittedText? ident t v = (t.hostArgument? (some v)).bind fun a =>
      shownCode? ident a (lex (FormatArgument.shown ident t).toList) := by
  simp only [emittedText?, ParamType.reader, reader?_display, ParamType.readArgument?_helper, Option.bind_eq_bind,
    Option.bind_some]

theorem emittedText?_of_read? (hnull : v ≠ .null) {x : HostValue} (hread : t.builtinOf.read? v = some x) :
    emittedText? ident t v = shownCode? ident (if t.nullable then .optional (some x) else .plain x)
      (lex (FormatArgument.shown ident t).toList) := by
  rw [emittedText?_eq, t.hostArgument?_of_ne_null hnull, hread, Option.map_some, Option.bind_some]

/-- **Shown arguments**: for every value that a type accepts the generated module has a text, and it is that of the
table unless the value is given to a parameter of numbers and its plain decimal is not its text in the data format. -/
theorem emittedText?_eq_display_iff (h : isWord ident.toList = true) {w : Json} (hw : t.coerce (some v) = .ok w) :
    ∃ text, emittedText? ident t v = some text ∧
      (text = w.display ↔ (t.builtinOf = .float → ∀ n, v = .number n → n.ShownPlain)) := by
  by_cases hnull : v = .null
  · -- Null is accepted only where an argument may be absent.
    subst hnull
    cases hnullable : t.nullable with
    | false => simp [ParamType.coerce, hnullable] at hw
    | true =>
      obtain rfl : Json.null = w := by simpa [ParamType.coerce, hnullable] using hw
      have habsent : t.hostArgument? (some .null) = some (.optional none) := by
        simp [ParamType.hostArgument?, HostArgument.read?, hnullable]
      refine ⟨"null", ?_, iff_of_true rfl fun _ n hn => by cases hn⟩
      rw [emittedText?_eq, habsent]
      exact shownCode?_absent h hnullable
  · rw [t.coerce_of_ne_null hnull] at hw
    cases haccepts : t.acceptsValue v with
    | false => simp [haccepts] at hw
    | true =>
      obtain rfl : v = w := by simpa [haccepts] using hw
      obtain ⟨x, hread⟩ := Option.isSome_iff_exists.mp ((t.isSome_read? v).trans haccepts)
      rw [emittedText?_of_read? hnull hread]
      by_cases hany : t.builtinOf = .any
      · -- A value that stays one of the data format is shown by the function that shows these.
        rw [hany] at hread
        obtain rfl : HostValue.value v = x := by
          cases v with
          | null => exact absurd rfl hnull
          | _ => exact Option.some.inj hread
        refine ⟨_, shownCode?_value h (by simp [ParamType.isValue, hany]) v, iff_of_true rfl ?_⟩
        rw [hany]
        intro hfloat
        cases hfloat
      · have hother : t.isValue = false := by simpa [ParamType.isValue] using hany
        by_cases hfloat : t.builtinOf = .float
        · rw [hfloat] at hread
          cases v with
          | number n =>
            obtain rfl : HostValue.float n.asFloat = x := Option.some.inj hread
            have hvalue : ∀ u, HostValue.float n.asFloat ≠ .value u := fun _ heq => by cases heq
            refine ⟨_, shownCode?_other h hother hvalue, ?_⟩
            rw [n.display_asFloat_iff]
            refine ⟨fun hplain _ m hm => ?_, fun hplain => hplain hfloat n rfl⟩
            obtain rfl := Json.number.inj hm
            exact hplain
          | _ => cases hread
        · obtain ⟨hvalue, hdisplay⟩ := display_of_read? hread hfloat hany
          exact ⟨_, shownCode?_other h hother hvalue, iff_of_true hdisplay fun hkind => absurd hkind hfloat⟩

end Argument

/-- An integer that is given to a parameter of numbers is shown as in the table. -/
theorem emittedText?_eq_display_five :
    ∃ text, emittedText? "count" (.builtin .float true) (.number (.integer 5)) = some text ∧ text = "5" := by
  have hword : isWord "count".toList = true := by decide
  have haccepted : (ParamType.builtin .float true).coerce (some (.number (.integer 5))) = .ok (.number (.integer 5)) :=
    rfl
  obtain ⟨text, htext, hiff⟩ := emittedText?_eq_display_iff hword haccepted
  refine ⟨text, htext, hiff.mpr fun _ n hn => ?_⟩
  obtain rfl := Json.number.inj hn
  exact JsonNumber.shownPlain_integer (by decide)

/-- A whole number that was written with a point loses it in the generated module. -/
theorem emittedText?_ne_display_three :
    ∃ ident t v w, isWord ident.toList = true ∧ ParamType.coerce t (some v) = .ok w ∧ w.display = "3.0" ∧
      emittedText? ident t v = some "3" := by
  refine ⟨"count", .builtin .float false, .number (.float ⟨false, 3 * 2 ^ 51, -51⟩), _, by decide, rfl, ?_, ?_⟩
  · decide +kernel
  · decide +kernel

end Phrasebook
