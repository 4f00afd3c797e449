import Phrasebook.Proofs.Parameter.Reading

/-!
# Spellings of types

A type may be written in many ways: a built-in kind has several words, in any ASCII case; arguments stand between
brackets of either sort; a question mark may be repeated; blanks stand around every piece. Every one of these spellings
is read as the type.

## Layers

- `Spells`: the spellings of a type, with one rule for each way to write one.
- `Spells.uncut`: a spelling is never cut inside.
- `Spells.denotes`: it denotes the type; `parse_of_spells`: so it is read as the type.
-/

namespace Phrasebook

open Phrasebook.Text

/-! ## §1 The spellings of a type -/

/-- The ways to write a type. -/
inductive Spells : ParamType → List Char → Prop where
  | word {kind : Builtin} {s : List Char} (hword : SpellsKind kind s) : Spells (.builtin kind false) s
  | star : Spells (.builtin .any false) ['*']
  /-- A name that is no word of a kind. -/
  | name {s : List Char} (hname : IsTypeName s) (hword : ∀ kind, ¬ SpellsKind kind s) :
      Spells (.named (String.ofList s) [] false) s
  /-- A name, which may be a word of a kind here, with arguments between brackets and commas between the arguments. -/
  | generic {base gap : List Char} {opening closing : Char} {arguments : List (ParamType × List Char)}
      (hbase : IsTypeName base) (hgap : Blanks gap) (hbrackets : Brackets opening closing)
      (hne : arguments ≠ []) (harguments : ∀ a ∈ arguments, Spells a.1 a.2) :
      Spells (.named (String.ofList base) (arguments.map (·.1)) false)
        (base ++ gap ++ opening :: ([','].intercalate (arguments.map (·.2)) ++ [closing]))
  /-- A question mark behind a type, of which there may be one already. -/
  | optional {t : ParamType} {s : List Char} (h : Spells t s) : Spells t.orNull (s ++ ['?'])
  | blanks {t : ParamType} {before s behind : List Char} (hbefore : Blanks before) (hbehind : Blanks behind)
      (h : Spells t s) : Spells t (before ++ s ++ behind)

/-! ## §2 Spellings are not cut -/

theorem IsTypeName.uncut {s : List Char} (h : IsTypeName s) : Uncut s := uncut_of_plain h.plain

/-- A spelling is not cut at the commas between its arguments, since these stand in brackets. -/
theorem Spells.uncut {t : ParamType} {s : List Char} (h : Spells t s) : Uncut s := by
  induction h with
  | word hword => exact (isTypeName_of_spellsKind hword).uncut
  | star => exact uncut_of_plain (List.forall_mem_singleton.mpr rfl)
  | name hname _ => exact hname.uncut
  | @generic base gap opening closing arguments hbase hgap hbrackets _ _ ih =>
    have hgroup : Uncut (opening :: ([','].intercalate (arguments.map (·.2)) ++ [closing])) :=
      uncut_brackets hbrackets (List.forall_mem_map.mpr ih)
    exact (hbase.uncut.append (uncut_of_blanks hgap)).append hgroup
  | optional _ ih => exact ih.append (uncut_of_plain (List.forall_mem_singleton.mpr rfl))
  | blanks hbefore hbehind _ ih => exact ((uncut_of_blanks hbefore).append ih).append (uncut_of_blanks hbehind)

/-! ## §3 Spellings are read -/

/-- A spelling denotes its type: the name in front of the arguments has no bracket at all. -/
theorem Spells.denotes {t : ParamType} {s : List Char} (h : Spells t s) : Denotes s t := by
  induction h with
  | word hword => exact .word hword
  | star => exact .star
  | name hname hword => exact .name hname hword
  | @generic base gap opening closing arguments hbase hgap hbrackets hne harguments ih =>
    -- The gap in front of the bracket is trimmed off the name.
    have hname : trim (base ++ gap) = base := by
      have hblanks := trim_blanks (fun _ hc => absurd hc List.not_mem_nil) hgap base
      rwa [List.nil_append, hbase.trimmed] at hblanks
    have hbefore : ∀ c ∈ base ++ gap, isOpening c = false := by
      intro c hc
      have hplain : isPlainChar c = true :=
        (List.mem_append.mp hc).elim (hbase.plain c) (plain_of_blanks hgap c)
      exact (noBracket_of_isPlainChar hplain).1
    have hdenotes := @Denotes.generic _ _ _ (arguments.map Prod.swap) (hname.symm ▸ hbase.ne_nil) hbefore hbrackets
      (List.map_eq_nil_iff.not.mpr hne) (List.forall_mem_map.mpr fun a ha => (harguments a ha).uncut)
      (List.forall_mem_map.mpr ih)
    rwa [hname, List.map_map, List.map_map] at hdenotes
  | optional _ ih => exact ih.optional
  | blanks hbefore hbehind _ ih => exact .blanks hbefore hbehind ih

/-- With fuel for its length, the reader reads a spelling as the type. -/
theorem Spells.parseWithin_eq {t : ParamType} {s : List Char} (h : Spells t s) {fuel : Nat}
    (hfuel : s.length ≤ fuel) : ParamType.parseWithin (fuel + 1) s = .ok t :=
  h.denotes.parseWithin_eq hfuel

/-- **Spellings**: every way to write a type is read as the type. -/
theorem parse_of_spells {t : ParamType} {s : String} (h : Spells t s.toList) : ParamType.parse s = .ok t :=
  h.parseWithin_eq Nat.le.refl

/-- Brackets of both sorts, with blanks and question marks between the pieces. -/
theorem parse_of_spells_nested :
    Spells (.named "Map" [.builtin .text true, .named "List" [.builtin .integer true] false] true)
        "Map [TEXT?, List< Int ??>] ?".toList ∧
      ParamType.parse "Map [TEXT?, List< Int ??>] ?" =
        .ok (.named "Map" [.builtin .text true, .named "List" [.builtin .integer true] false] true) := by
  have hblank : Blanks [' '] := List.forall_mem_singleton.mpr rfl
  have hnone : Blanks [] := List.forall_mem_nil _
  have htext : Spells (.builtin .text true) ['T', 'E', 'X', 'T', '?'] := by
    have hword : Spells (.builtin .text false) ['T', 'E', 'X', 'T'] := .word ⟨"text", by decide, by decide⟩
    exact hword.optional
  have hinteger : Spells (.builtin .integer true) [' ', 'I', 'n', 't', ' ', '?', '?'] := by
    have hword : Spells (.builtin .integer false) ['I', 'n', 't'] := .word ⟨"int", by decide, by decide⟩
    have hgap : Spells (.builtin .integer false) ['I', 'n', 't', ' '] :=
      @Spells.blanks _ [] _ [' '] hnone hblank hword
    exact @Spells.blanks _ [' '] _ [] hblank hnone hgap.optional.optional
  have hlist : Spells (.named "List" [.builtin .integer true] false) " List< Int ??>".toList := by
    have hbase : IsTypeName ['L', 'i', 's', 't'] := ⟨by decide, by decide, List.all_eq_true.mp (by decide), by decide, by decide⟩
    have hgeneric := @Spells.generic _ [] _ _ [(_, _)] hbase hnone .angle (by simp) (by simpa using hinteger)
    exact @Spells.blanks _ [' '] _ [] hblank hnone hgeneric
  have hmap : Spells (.named "Map" [.builtin .text true, .named "List" [.builtin .integer true] false] true)
      "Map [TEXT?, List< Int ??>] ?".toList := by
    have hbase : IsTypeName ['M', 'a', 'p'] := ⟨by decide, by decide, List.all_eq_true.mp (by decide), by decide, by decide⟩
    have hgeneric := @Spells.generic _ [' '] _ _ [(_, _), (_, _)] hbase hblank .square (by simp)
      (by simpa using ⟨htext, hlist⟩)
    have hgap := @Spells.blanks _ [] _ [' '] hnone hblank hgeneric
    exact hgap.optional
  exact ⟨hmap, parse_of_spells hmap⟩

end Phrasebook
