import Phrasebook.Parameter.List
import Phrasebook.Proofs.Name.Distinct
import Phrasebook.Proofs.Parameter.Reading

/-!
# Reading parameter lists

The parts of a list are read from the left: each is a name and the text of a type, and the name must be new. The first
part that cannot be read ends the reading.

## Layers

- `DenotesParameter`: the texts of a parameter.
- `parsePart_eq_ok_iff`, `parseParts_eq_ok_iff`: which parts are read; `parseChars_eq_ok_iff`: which texts are.
- `parseParts_append`: parts behind other parts; `StopsAt`: the part at which the reading stops.
- `parse_append`: two lists with a comma between them.
-/

namespace Phrasebook

open Phrasebook.Name Phrasebook.Text

/-! ## §1 The texts of a parameter -/

/-- A parameter is a name and the text of its type, with a colon between them. -/
def DenotesParameter (part : List Char) (p : Parameter) : Prop :=
  ∃ before behind, ':' ∉ before ∧ part = before ++ ':' :: behind ∧ trim before ≠ [] ∧
    p.name = String.ofList (trim before) ∧ Denotes behind p.type

/-- Blanks at the ends make no difference. -/
theorem denotesParameter_trim_iff {part : List Char} {p : Parameter} :
    DenotesParameter (trim part) p ↔ DenotesParameter part p := by
  refine ⟨fun h => ?_, fun h => ?_⟩
  · obtain ⟨before, behind, hcolon, hpart, hbase, hname, htype⟩ := h
    -- The blanks in front belong to the name, and those behind to the type; both are trimmed on their own.
    obtain ⟨b, e, hb, he, hs⟩ := exists_blanks part
    have htrim : trim (b ++ before) = trim before := by
      have hblanks := trim_blanks hb (List.forall_mem_nil _) before
      rwa [List.append_nil] at hblanks
    refine ⟨b ++ before, behind ++ e, ?_, ?_, htrim ▸ hbase, htrim ▸ hname, ?_⟩
    · intro hmem
      rcases List.mem_append.mp hmem with hblank | hbefore
      · exact absurd (hb _ hblank) (by decide)
      · exact hcolon hbefore
    · rw [hs, hpart]
      simp
    · exact @Denotes.blanks [] _ _ _ (List.forall_mem_nil _) he htype
  · obtain ⟨before, behind, hcolon, rfl, hbase, hname, htype⟩ := h
    refine ⟨trimStart before, trimEnd behind, fun hmem => hcolon ((List.dropWhile_suffix isBlank).subset hmem),
      trim_append_cons hbase (by decide) behind, ?_, ?_, (denotes_congr_trim (trim_trimEnd behind)).mpr htype⟩
    · rwa [trim_trimStart]
    · rwa [trim_trimStart]

namespace ParameterList

/-! ## §2 Parts that are read -/

/-- The name in front of the colon of a part. -/
def partName? (part : List Char) : Option String := (cut? ':' part).map fun halves => String.ofList (trim halves.1)

theorem partName?_of_denotesParameter {part : List Char} {p : Parameter} (h : DenotesParameter part p) :
    partName? part = some p.name := by
  obtain ⟨before, behind, hcolon, rfl, -, hname, -⟩ := h
  rw [partName?, cut?_append hcolon, hname]
  rfl

/-- A part is read when it denotes a parameter and the name is new. -/
theorem parsePart_eq_ok_iff {seen : List String} {part : List Char} {p : Parameter} :
    parsePart seen part = .ok p ↔ p.name ∉ seen ∧ DenotesParameter part p := by
  refine ⟨fun h => ?_, fun h => ?_⟩
  -- A part is refused for a missing colon, an empty name, a name seen before or its type, in this order.
  · unfold parsePart at h
    split at h
    · cases h
    · rename_i before behind hcut
      obtain ⟨hcolon, rfl⟩ := of_cut? hcut
      simp only at h
      split at h
      · cases h
      · rename_i hempty
        split at h
        · cases h
        · rename_i hseen
          split at h
          · cases h
          · rename_i type htype
            obtain rfl := Except.ok.inj h
            refine ⟨by simpa using hseen, before, behind, hcolon, rfl, ?_, rfl, ParamType.parseChars_eq_ok_iff.mp htype⟩
            simpa using hempty
  · obtain ⟨hnew, before, behind, hcolon, rfl, hbase, hname, htype⟩ := h
    obtain ⟨name, type⟩ := p
    obtain rfl : name = _ := hname
    have hempty : (String.ofList (trim before)).isEmpty = false := by simpa using hbase
    have hcontains : seen.contains (String.ofList (trim before)) = false := by simpa using hnew
    simp only [parsePart, cut?_append hcolon, hempty, hcontains, ParamType.parseChars_eq_ok_iff.mpr htype,
      Bool.false_eq_true, ↓reduceIte]

/-- Parts are read when each denotes a parameter and the names are new and distinct. -/
theorem parseParts_eq_ok_iff {seen : List String} {parts : List (List Char)} {ps : ParameterList} :
    parseParts seen parts = .ok ps ↔ Fresh seen (names ps) ∧ List.Forall₂ DenotesParameter parts ps := by
  induction parts generalizing seen ps with
  | nil =>
    rw [List.forall₂_nil_left_iff]
    refine ⟨fun h => ?_, fun h => by rw [h.2]; rfl⟩
    obtain rfl := Except.ok.inj h
    exact ⟨fresh_nil seen, rfl⟩
  | cons part parts ih =>
    have hnext : ∀ (name : String) (names : List String),
        Fresh (seen ++ [name]) names ↔ Fresh (name :: seen) names :=
      fun name names => fresh_congr fun n => by simp [or_comm]
    rw [List.forall₂_cons_left_iff, parseParts]
    cases hpart : parsePart seen part with
    | error e =>
      simp only [reduceCtorEq, false_iff, not_and, not_exists]
      rintro hfresh p rest hp - rfl
      rw [parsePart_eq_ok_iff.mpr ⟨(fresh_cons_iff.mp hfresh).1, hp⟩] at hpart
      cases hpart
    | ok p =>
      obtain ⟨hnew, hp⟩ := parsePart_eq_ok_iff.mp hpart
      simp only [map_eq_ok, ih, hnext]
      refine ⟨fun h => ?_, fun h => ?_⟩
      · obtain ⟨rest, ⟨hfresh, hrest⟩, rfl⟩ := h
        exact ⟨fresh_cons_iff.mpr ⟨hnew, hfresh⟩, p, rest, hp, hrest, rfl⟩
      · obtain ⟨hfresh, q, rest, hq, hrest, rfl⟩ := h
        -- The part denotes one parameter only, so `q` is what has been read.
        have hq := parsePart_eq_ok_iff.mpr ⟨(fresh_cons_iff.mp hfresh).1, hq⟩
        obtain rfl : q = p := Except.ok.inj (hq.symm.trans hpart)
        exact ⟨rest, ⟨(fresh_cons_iff.mp hfresh).2, hrest⟩, rfl⟩

/-! ## §3 Lists that are read -/

/-- A text that is not blank is read by its parts. -/
theorem parse_eq_parseParts {s : String} (h : allBlank s = false) {parts : List (List Char)}
    (hsplit : splitTopLevel s.toList = some parts) : parse s = parseParts [] parts := by
  have hblank : s.toList.all isBlank = false := h
  simp only [parse, parseChars, hblank, hsplit, Bool.false_eq_true, ↓reduceIte]

/-- A text is a list of parameters when it is blank, or else when uncut texts of parameters with distinct names stand
between its commas. -/
theorem parseChars_eq_ok_iff {s : List Char} {ps : ParameterList} :
    parseChars s = .ok ps ↔ (Blanks s ∧ ps = []) ∨ ¬ Blanks s ∧ (names ps).Nodup ∧
      ∃ texts : List (List Char), texts ≠ [] ∧ (∀ p ∈ texts, Uncut p) ∧ s = [','].intercalate texts ∧
        List.Forall₂ DenotesParameter texts ps := by
  have hblank : s.all isBlank = true ↔ Blanks s := List.all_eq_true
  unfold parseChars
  by_cases hs : Blanks s
  · simp [hblank.mpr hs, hs, eq_comm]
  · rw [if_neg (hblank.not.mpr hs)]
    simp only [hs, false_and, not_false_eq_true, true_and, false_or]
    cases hsplit : splitTopLevel s with
    | none =>
      simp only [reduceCtorEq, false_iff, not_and, not_exists]
      rintro - texts hne huncut rfl
      rw [splitTopLevel_intercalate hne huncut] at hsplit
      cases hsplit
    | some parts =>
      obtain ⟨texts, hne, huncut, rfl, rfl⟩ := splitTopLevel_eq_some_iff.mp hsplit
      simp only [parseParts_eq_ok_iff, fresh_nil_left_iff, List.forall₂_map_left_iff, denotesParameter_trim_iff]
      refine ⟨fun h => ⟨h.1, texts, hne, huncut, rfl, h.2⟩, fun h => ?_⟩
      obtain ⟨hnodup, texts', hne', huncut', heq, hall⟩ := h
      -- A text has one list of parts.
      have hparts := splitWithin_intercalate hne huncut
      rw [heq, splitWithin_intercalate hne' huncut'] at hparts
      obtain rfl := Option.some.inj hparts
      exact ⟨hnodup, hall⟩

/-! ## §4 Parts behind other parts -/

/-- Behind other parts, parts are read with the names of these as seen. -/
theorem parseParts_append (seen : List String) (parts parts' : List (List Char)) :
    parseParts seen (parts ++ parts')
      = (parseParts seen parts).bind fun ps => (parseParts (seen ++ names ps) parts').map (ps ++ ·) := by
  -- By induction on the first parts; the names that were seen before grow with each of them.
  induction parts generalizing seen with
  | nil =>
    show _ = (parseParts (seen ++ []) parts').map ([] ++ ·)
    rw [List.append_nil, List.nil_append]
    cases parseParts seen parts' <;> rfl
  | cons part parts ih =>
    rw [List.cons_append, parseParts, parseParts]
    cases parsePart seen part with
    | error e => rfl
    | ok p =>
      simp only [ih]
      cases parseParts (seen ++ [p.name]) parts with
      | error e => rfl
      | ok ps =>
        show ((parseParts (seen ++ [p.name] ++ names ps) parts').map _).map _
          = (parseParts (seen ++ names (p :: ps)) _).map _
        rw [List.append_assoc]
        show ((parseParts (seen ++ names (p :: ps)) parts').map _).map _ = _
        cases parseParts (seen ++ names (p :: ps)) parts' <;> rfl

/-- Only the name of a part is looked for among those that were seen. -/
theorem parsePart_congr {seen seen' : List String} {part : List Char}
    (h : ∀ name, partName? part = some name → (name ∈ seen ↔ name ∈ seen')) :
    parsePart seen part = parsePart seen' part := by
  unfold parsePart
  cases hcut : cut? ':' part with
  | none => rfl
  | some halves =>
    obtain ⟨before, behind⟩ := halves
    have hname : partName? part = some (String.ofList (trim before)) := by rw [partName?, hcut]; rfl
    have hseen : seen.contains (String.ofList (trim before)) = seen'.contains (String.ofList (trim before)) := by
      simp [h _ hname]
    simp only [hseen]

/-- The reading of parts stops at one of them: those before it are read, and it is not. -/
def StopsAt (parts before : List (List Char)) (part : List Char) (e : ParameterListError) : Prop :=
  ∃ behind ps, parts = before ++ part :: behind ∧ parseParts [] before = .ok ps ∧ parsePart (names ps) part = .error e

/-- The parts before one that is not read do not matter but for their names. -/
theorem parseParts_of_stop {seen : List String} {before behind : List (List Char)} {part : List Char}
    {ps : ParameterList} {e : ParameterListError} (hbefore : parseParts seen before = .ok ps)
    (hpart : parsePart (seen ++ names ps) part = .error e) :
    parseParts seen (before ++ part :: behind) = .error e := by
  rw [parseParts_append, hbefore]
  show (parseParts (seen ++ names ps) (part :: behind)).map _ = _
  rw [parseParts, hpart]
  rfl

/-- Where parts are not read, there is a first one that is not. -/
theorem exists_stop {seen : List String} {parts : List (List Char)} {e : ParameterListError}
    (h : parseParts seen parts = .error e) :
    ∃ before part behind ps, parts = before ++ part :: behind ∧ parseParts seen before = .ok ps ∧
      parsePart (seen ++ names ps) part = .error e := by
  induction parts generalizing seen with
  | nil => cases h
  | cons part parts ih =>
    rw [parseParts] at h
    -- The first part that is refused is this one, or else the one that stops the rest.
    cases hpart : parsePart seen part with
    | error e' =>
      rw [hpart] at h
      obtain rfl := Except.error.inj h
      exact ⟨[], part, parts, [], rfl, rfl, by rwa [names, List.map_nil, List.append_nil]⟩
    | ok p =>
      rw [hpart] at h
      obtain ⟨before, stop, behind, ps, rfl, hbefore, hstop⟩ := ih (map_eq_error.mp h)
      refine ⟨part :: before, stop, behind, p :: ps, rfl, ?_, ?_⟩
      · rw [parseParts, hpart]
        simp only [hbefore]
        rfl
      · rwa [List.append_assoc] at hstop

theorem parseParts_eq_error_iff {parts : List (List Char)} {e : ParameterListError} :
    parseParts [] parts = .error e ↔ ∃ before part, StopsAt parts before part e := by
  refine ⟨fun h => ?_, fun h => ?_⟩
  · obtain ⟨before, part, behind, ps, hparts, hbefore, hpart⟩ := exists_stop h
    exact ⟨before, part, behind, ps, hparts, hbefore, hpart⟩
  · obtain ⟨before, part, behind, ps, rfl, hbefore, hpart⟩ := h
    exact parseParts_of_stop hbefore hpart

/-- Behind names that none of the parts up to the stop has, the reading stops at the same part. -/
theorem parseParts_of_stopsAt {seen : List String} {parts before : List (List Char)} {part : List Char}
    {e : ParameterListError} (h : StopsAt parts before part e)
    (hnew : ∀ p ∈ before ++ [part], ∀ name, partName? p = some name → name ∉ seen) :
    parseParts seen parts = .error e := by
  obtain ⟨behind, ps, rfl, hbefore, hpart⟩ := h
  obtain ⟨hfresh, hall⟩ := parseParts_eq_ok_iff.mp hbefore
  -- Only names matter of what was seen, and none of them is among the parts up to the stop.
  have hnames : ∀ name ∈ names ps, name ∉ seen := by
    intro name hname
    obtain ⟨p, hp, rfl⟩ := List.mem_map.mp hname
    obtain ⟨text, htext, hdenotes⟩ := exists_of_forall₂_of_mem_right hall hp
    exact hnew text (List.mem_append_left _ htext) _ (partName?_of_denotesParameter hdenotes)
  apply parseParts_of_stop (parseParts_eq_ok_iff.mpr ⟨⟨hnames, hfresh.2⟩, hall⟩)
  rw [← hpart]
  apply parsePart_congr
  intro name hname
  have hother := hnew part (List.mem_append_right _ List.mem_cons_self) name hname
  simp [hother]

/-! ## §5 Two lists -/

/-- **Composition**: two lists with a comma between them are read as both of them, provided that they share no name.
The first list that is not read gives the error: the second one does so where no part up to the one at which its
reading stops has a name of the first list. -/
theorem parse_append {a b : String} {as bs : List (List Char)} (ha : allBlank a = false) (hb : allBlank b = false)
    (has : splitTopLevel a.toList = some as) (hbs : splitTopLevel b.toList = some bs) :
    (∀ ps, parse (a ++ "," ++ b) = .ok ps ↔
      ∃ qs rs, parse a = .ok qs ∧ parse b = .ok rs ∧ (∀ name ∈ names rs, name ∉ names qs) ∧ ps = qs ++ rs) ∧
    (∀ e, parse a = .error e → parse (a ++ "," ++ b) = .error e) ∧
    (∀ e, parse b = .error e ↔ ∃ before part, StopsAt bs before part e) ∧
    ∀ qs before part e, parse a = .ok qs → StopsAt bs before part e →
      (∀ p ∈ before ++ [part], ∀ name, partName? p = some name → name ∉ names qs) →
      parse (a ++ "," ++ b) = .error e := by
  have hchars : (a ++ "," ++ b).toList = a.toList ++ ',' :: b.toList := by simp
  have hblank : allBlank (a ++ "," ++ b) = false := by
    rw [allBlank, hchars, List.all_append, show a.toList.all isBlank = false from ha, Bool.false_and]
  have hsplit : splitTopLevel (a ++ "," ++ b).toList = some (as ++ bs) := hchars ▸ splitTopLevel_append has hbs
  -- The parts of the joined text are those of both, and the second text starts with the names of the first.
  rw [parse_eq_parseParts hblank hsplit, parse_eq_parseParts ha has, parse_eq_parseParts hb hbs, parseParts_append]
  refine ⟨fun ps => ⟨fun h => ?_, fun h => ?_⟩, fun e h => ?_, fun e => parseParts_eq_error_iff, ?_⟩
  -- Only names that are in both lists can spoil what both texts are on their own.
  · cases hqs : parseParts [] as with
    | error e =>
      rw [hqs] at h
      cases h
    | ok qs =>
      rw [hqs] at h
      obtain ⟨rs, hrs, rfl⟩ := map_eq_ok.mp h
      obtain ⟨hfresh, hall⟩ := parseParts_eq_ok_iff.mp hrs
      exact ⟨qs, rs, rfl, parseParts_eq_ok_iff.mpr ⟨fresh_nil_left_iff.mpr hfresh.2, hall⟩, hfresh.1, rfl⟩
  · obtain ⟨qs, rs, hqs, hrs, hshare, rfl⟩ := h
    obtain ⟨hfresh, hall⟩ := parseParts_eq_ok_iff.mp hrs
    rw [hqs]
    exact map_eq_ok.mpr ⟨rs, parseParts_eq_ok_iff.mpr ⟨⟨hshare, hfresh.2⟩, hall⟩, rfl⟩
  · rw [h]
    rfl
  · intro qs before part e hqs hstop hnew
    rw [hqs]
    exact map_eq_error.mpr (parseParts_of_stopsAt hstop hnew)

/-- The comma between the brackets separates nothing, and the last part has no colon. -/
theorem parse_append_scores :
    parse ("name:text" ++ "," ++ "scores:Map<text,integer>")
        = .ok [⟨"name", .builtin .text false⟩,
          ⟨"scores", .named "Map" [.builtin .text false, .builtin .integer false] false⟩] ∧
      parse ("name:text" ++ "," ++ "scores:Map<text,integer>,count") = .error (.missingSeparator "count") := by
  have hname : allBlank "name:text" = false := by decide
  have htext : parse "name:text" = .ok [⟨"name", .builtin .text false⟩] := by decide +kernel
  have hnames : splitTopLevel "name:text".toList = some ["name:text".toList] := by decide +kernel
  have hread : parseParts [] ["scores:Map<text,integer>".toList]
      = .ok [⟨"scores", .named "Map" [.builtin .text false, .builtin .integer false] false⟩] := by decide +kernel
  constructor
  · have hscores : splitTopLevel "scores:Map<text,integer>".toList = some ["scores:Map<text,integer>".toList] := by
      decide +kernel
    refine ((parse_append hname (by decide) hnames hscores).1 _).mpr ⟨_, _, htext, ?_, by decide, rfl⟩
    exact (parse_eq_parseParts (by decide) hscores).trans hread
  · have hscores : splitTopLevel "scores:Map<text,integer>,count".toList
        = some ["scores:Map<text,integer>".toList, "count".toList] := by decide +kernel
    have hstop : StopsAt ["scores:Map<text,integer>".toList, "count".toList] ["scores:Map<text,integer>".toList]
        "count".toList (.missingSeparator "count") := ⟨[], _, rfl, hread, by decide +kernel⟩
    exact (parse_append hname (by decide) hnames hscores).2.2.2 _ _ _ _ htext hstop (by decide)

end ParameterList

end Phrasebook
