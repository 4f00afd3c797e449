import Phrasebook.Proofs.Text.Replacing
import Phrasebook.Source.Location

/-!
# Locations of sources

A location is made in two steps: the locale is put into the format, and then the file into the result. So the file has
its place only while the placeholder of the file outlives the first step, and the locale must not bring such a
placeholder along.

## Layers

- `sign`, `mark`: placeholders are words between two signs.
- `contains_replaceFrom_mark`: replacing one placeholder leaves another one, unless they share a sign.
- `NameStays`, `expand_file_iff`: files are kept apart.
- `NameApart`, `expand_locale_iff`: locales are kept apart.
-/

namespace Phrasebook.Location

open Phrasebook.Text

/-! ## §1 Placeholders -/

/-- The sign at both ends of a placeholder. -/
def sign : Char := '%'

/-- A word as a placeholder. -/
def mark (word : List Char) : List Char := sign :: (word ++ [sign])

/-- The word of the placeholder of the locale. -/
def localeWord : List Char := "locale".toList

/-- The word of the placeholder of the file. -/
def nameWord : List Char := "name".toList

theorem localeMark_eq : localeMark = mark localeWord := rfl

theorem nameMark_eq : nameMark = mark nameWord := rfl

/-- Two placeholders that share the sign between them. -/
def shared (x y : List Char) : List Char := sign :: (x ++ sign :: (y ++ [sign]))

/-- A word up to its sign reaches to the next sign, or no further than what stands in front of it. -/
theorem eq_or_prefix_of_prefix {x u t : List Char} (hx : sign ∉ x) (h : x ++ [sign] <+: u ++ sign :: t) :
    u = x ∨ x ++ [sign] <+: u := by
  -- By induction on the word in the mark, which has no sign of its own to end earlier.
  induction x generalizing u with
  | nil =>
    cases u with
    | nil => exact .inl rfl
    | cons d u =>
      obtain ⟨rfl, -⟩ := List.cons_prefix_cons.mp h
      exact .inr (List.prefix_append [sign] u)
  | cons c x ih =>
    cases u with
    | nil =>
      obtain ⟨rfl, -⟩ := List.cons_prefix_cons.mp h
      exact absurd List.mem_cons_self hx
    | cons d u =>
      obtain ⟨rfl, htail⟩ := List.cons_prefix_cons.mp h
      rcases ih (fun hmem => hx (List.mem_cons_of_mem c hmem)) htail with rfl | hstart
      · exact .inl rfl
      · exact .inr (List.cons_prefix_cons.mpr ⟨rfl, hstart⟩)

/-- What holds no sign is passed over. -/
theorem replaceFrom_of_noSign {x new s : List Char} (hs : sign ∉ s) (t : List Char) :
    replaceFrom (mark x) new 0 (s ++ t) = s ++ replaceFrom (mark x) new 0 t := by
  induction s with
  | nil => rfl
  | cons c s ih =>
    have hne : sign ≠ c := fun heq => hs (heq ▸ List.mem_cons_self)
    rw [List.cons_append, replaceFrom, if_neg (by simp [mark, hne]),
      ih fun hmem => hs (List.mem_cons_of_mem c hmem), List.cons_append]

/-- A placeholder is passed over where another one is replaced, unless they share its last sign. -/
theorem replaceFrom_mark {x y new t : List Char} (hx : sign ∉ x) (hy : sign ∉ y) (hne : x ≠ y)
    (hshared : ¬ x ++ [sign] <+: t) :
    replaceFrom (mark x) new 0 (mark y ++ t) = mark y ++ replaceFrom (mark x) new 0 t := by
  -- Neither sign of the other mark begins this one: another word follows the first, and no mark the second.
  have hfirst : ¬ (mark x).isPrefixOf (sign :: (y ++ sign :: t)) = true := by
    rw [List.isPrefixOf_iff_prefix]
    intro h
    rcases eq_or_prefix_of_prefix hx (List.cons_prefix_cons.mp h).2 with rfl | hstart
    · exact hne rfl
    · exact hy (hstart.subset (List.mem_append_right x List.mem_cons_self))
  have hlast : ¬ (mark x).isPrefixOf (sign :: t) = true := by
    rw [List.isPrefixOf_iff_prefix]
    exact fun h => hshared (List.cons_prefix_cons.mp h).2
  have hform : mark y ++ t = sign :: (y ++ sign :: t) := by simp [mark]
  rw [hform, replaceFrom, if_neg hfirst, replaceFrom_of_noSign hy, replaceFrom, if_neg hlast]
  simp [mark]

/-- Where a placeholder occurs in front of another one, it ends there too, unless they share a sign. -/
theorem length_le_of_mark_prefix {x y u t : List Char} {c : Char} (hx : sign ∉ x)
    (hapart : ¬ shared x y <:+: c :: (u ++ (mark y ++ t))) (h : mark x <+: c :: (u ++ (mark y ++ t))) :
    (mark x).length - 1 ≤ u.length := by
  obtain ⟨rfl, hword⟩ := List.cons_prefix_cons.mp h
  have hform : u ++ (mark y ++ t) = u ++ sign :: (y ++ [sign] ++ t) := by simp [mark]
  rcases eq_or_prefix_of_prefix hx (hform ▸ hword) with rfl | hearlier
  · have hshared : shared u y <+: sign :: (u ++ (mark y ++ t)) := ⟨t, by simp [mark, shared]⟩
    exact absurd hshared.isInfix hapart
  · simpa [mark] using hearlier.length_le

/-- A placeholder outlives the replacement of another one, unless they share a sign. -/
theorem contains_replaceFrom_mark {x y new u t : List Char} (hx : sign ∉ x) (hy : sign ∉ y) (hne : x ≠ y)
    (hbefore : ¬ shared x y <:+: u ++ (mark y ++ t)) (hbehind : ¬ shared y x <:+: u ++ (mark y ++ t)) {skip : Nat}
    (hskip : skip ≤ u.length) : contains (mark y) (replaceFrom (mark x) new skip (u ++ (mark y ++ t))) = true := by
  induction u generalizing skip with
  | nil =>
    obtain rfl : skip = 0 := by simpa using hskip
    -- The mark stands here: another one that shares its sign is excluded by `hbehind`.
    have hfree : ¬ x ++ [sign] <+: t := by
      rintro ⟨rest, rfl⟩
      have hshared : shared y x <+: [] ++ (mark y ++ (x ++ [sign] ++ rest)) := ⟨rest, by simp [mark, shared]⟩
      exact hbehind hshared.isInfix
    rw [List.nil_append, replaceFrom_mark hx hy hne hfree, contains_iff]
    exact (List.prefix_append _ _).isInfix
  | cons c u ih =>
    have hskipped : ∀ skip, skip ≤ u.length →
        contains (mark y) (replaceFrom (mark x) new skip (u ++ (mark y ++ t))) = true := fun skip hskip =>
      ih (fun h => hbefore (h.trans (List.suffix_cons c _).isInfix))
        (fun h => hbehind (h.trans (List.suffix_cons c _).isInfix)) hskip
    rw [List.cons_append] at hbefore ⊢
    cases skip with
    | succ skip => exact hskipped skip (by simpa using hskip)
    | zero =>
      -- A mark that is replaced here ends in front of the other one, or they would share a sign.
      rw [replaceFrom]
      split
      · rename_i hstart
        have hwithin := length_le_of_mark_prefix hx hbefore (List.isPrefixOf_iff_prefix.mp hstart)
        exact contains_append_left (hskipped _ hwithin) new
      · exact contains_append_left (hskipped 0 (Nat.zero_le _)) [c]

/-! ## §2 Files -/

/-- The two placeholders of a format share no sign. -/
structure MarksApart (format : String) : Prop where
  localeFirst : contains "%locale%name%".toList format.toList = false
  nameFirst : contains "%name%locale%".toList format.toList = false

/-- The placeholder of the file is still there when the locale has been put into a format. -/
def NameStays (format locale : String) : Prop :=
  contains nameMark (replaceAll localeMark (localeFolder locale.toList) format.toList) = true

instance (format locale : String) : Decidable (NameStays format locale) :=
  inferInstanceAs (Decidable (_ = true))

/-- The placeholder of the file stays whatever the locale is, when the placeholders share no sign. -/
theorem MarksApart.nameStays {format : String} (h : MarksApart format)
    (hname : contains nameMark format.toList = true) (locale : String) : NameStays format locale := by
  obtain ⟨u, t, hformat⟩ := contains_iff.mp hname
  have hapart : ∀ word, contains word format.toList = false → ¬ word <:+: u ++ (nameMark ++ t) := by
    intro word hword
    rw [← List.append_assoc, hformat, ← contains_iff, hword]
    exact Bool.false_ne_true
  have hbefore : ¬ shared localeWord nameWord <:+: u ++ (nameMark ++ t) := hapart _ h.localeFirst
  have hbehind : ¬ shared nameWord localeWord <:+: u ++ (nameMark ++ t) := hapart _ h.nameFirst
  rw [NameStays, ← hformat, List.append_assoc, localeMark_eq, nameMark_eq]
  exact contains_replaceFrom_mark (by decide) (by decide) (by decide) hbefore hbehind (Nat.zero_le _)

/-- Files have different locations exactly while the placeholder of the file stays: without it, they all have one. -/
theorem expand_file_iff {format locale file file' : String}
    (hne : filePath file.toList ≠ filePath file'.toList) :
    expand format locale file ≠ expand format locale file' ↔ NameStays format locale := by
  rw [expand, expand, ne_eq, String.ofList_inj, expandChars, expandChars, replaceAll_inj (by decide), NameStays]
  simp [hne]

/-! ## §3 Locales -/

/-- A locale brings no placeholder of the file along, neither in its folder nor together with what stands around it: in
the location, only those that the format has are replaced. -/
def NameApart (format locale file : String) : Prop :=
  expandChars format.toList locale.toList file.toList =
    (localeFolder locale.toList).intercalate
      ((partsAround localeMark format.toList).map (replaceAll nameMark (filePath file.toList)))

instance (format locale file : String) : Decidable (NameApart format locale file) :=
  inferInstanceAs (Decidable (_ = _))

/-- Locales have different locations for a file when the placeholder of the locale is there and they bring none of the
file along. -/
theorem expand_locale_ne {format locale locale' file : String} (hlocale : contains localeMark format.toList = true)
    (hne : localeFolder locale.toList ≠ localeFolder locale'.toList) (hapart : NameApart format locale file)
    (hapart' : NameApart format locale' file) : expand format locale file ≠ expand format locale' file := by
  intro heq
  rw [expand, expand, String.ofList_inj, hapart, hapart'] at heq
  refine hne (intercalate_inj ?_ heq)
  rw [List.length_map]
  exact two_le_length_partsAround (by decide) hlocale

/-- Every sign in a format belongs to a placeholder. -/
def Regular (format : String) : Prop := ∀ part ∈ partsAround localeMark format.toList, Covered sign nameMark part

instance (format : String) : Decidable (Regular format) := inferInstanceAs (Decidable (∀ _ ∈ _, _))

theorem replaceAll_intercalate {new folder : List Char} (hfolder : sign ∉ folder) {parts : List (List Char)}
    (h : ∀ part ∈ parts, Covered sign nameMark part) :
    replaceAll nameMark new (folder.intercalate parts) =
      folder.intercalate (parts.map (replaceAll nameMark new)) := by
  have hkept : ∀ text, replaceAll nameMark text folder = folder :=
    replaceAll_of_not_contains (not_contains_of_not_mem rfl hfolder)
  -- By induction on the parts; a placeholder is never made of the ends of two of them.
  induction parts with
  | nil => rfl
  | cons part parts ih =>
    cases parts with
    | nil => simp
    | cons next parts =>
      have hcovered : Covered sign nameMark folder := by rwa [Covered, hkept]
      rw [List.intercalate_cons_cons, List.append_assoc, (h part List.mem_cons_self).replaceAll_append rfl,
        hcovered.replaceAll_append rfl, hkept, ih fun p hp => h p (List.mem_cons_of_mem part hp), List.map_cons,
        List.map_cons, List.map_cons, List.intercalate_cons_cons, List.append_assoc]

/-- A locale without signs brings no placeholder along where every sign of the format belongs to one. -/
theorem Regular.nameApart {format : String} (h : Regular format) {locale : String}
    (hlocale : sign ∉ localeFolder locale.toList) (file : String) : NameApart format locale file := by
  rw [NameApart, expandChars, replaceAll_eq_intercalate localeMark, replaceAll_intercalate hlocale h]

end Phrasebook.Location
