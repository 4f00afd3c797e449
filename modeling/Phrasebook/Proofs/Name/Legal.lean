import Phrasebook.Proofs.Name.Identifier

/-!
# Names that can be written

The generated module can only be compiled when each of its names is an identifier that is no keyword, or a keyword
that is written raw. Names in lower case are escaped, and all of them are legal. The variant of a locale begins with a
capital and is not escaped, and there is a keyword that begins with a capital.

## Layers

- `languageKeywords`, `Legal`: the names that can be written.
- `legal_escaped`: escaped names, whatever they are made of.
- `head_variantChars`, `ofLocale_eq_Self_iff`: how a variant begins, and the locales whose variant is the keyword.
- `legal_names`: all names of the generated module.
-/

namespace Phrasebook.Name

open Phrasebook.Text

/-! ## §1 Legal names -/

/-- The keywords of Rust: those that are in use, and those that are kept for later. -/
def languageKeywords : List String :=
  ["as", "async", "await", "break", "const", "continue", "crate", "dyn", "else", "enum", "extern", "false", "fn",
    "for", "if", "impl", "in", "let", "loop", "match", "mod", "move", "mut", "pub", "ref", "return", "self", "Self",
    "static", "struct", "super", "trait", "true", "type", "unsafe", "use", "where", "while",
    "abstract", "become", "box", "do", "final", "gen", "macro", "override", "priv", "try", "typeof", "unsized",
    "virtual", "yield"]

/-- The keywords that stand in paths, which cannot be written raw. -/
def pathKeywords : List String := ["self", "Self", "super", "crate"]

/-- A name that can be written in the generated module. -/
inductive Legal (name : String) : Prop where
  | plain (identifier : isIdentifier name.toList = true) (named : name ≠ "_") (free : name ∉ languageKeywords)
  | raw {word : String} (keyword : word ∈ languageKeywords) (free : word ∉ pathKeywords) (mark : name = "r#" ++ word)

/-! ## §2 Escaped names -/

/-- No capital is left of a name. -/
theorem not_isCapital_of_mem_accessorChars {key : List Char} {c : Char} (h : c ∈ accessorChars key) :
    isCapital c = false := by
  have hchar : ∀ d, isCapital (accessorChar d) = false := by
    intro d
    unfold accessorChar
    split
    · exact not_isCapital_lowerAscii d
    · decide
  -- An underscore may be put in front of the name; what follows is written character by character.
  have hmem : c = '_' ∨ c ∈ key.map accessorChar := by
    unfold accessorChars guardStart at h
    split at h
    · exact .inl (List.mem_singleton.mp h)
    · split at h
      · rename_i hkey _
        exact (List.mem_cons.mp h).imp_right fun hc => hkey ▸ hc
      · rename_i hkey _
        exact .inr (hkey ▸ h)
  rcases hmem with rfl | hmem
  · decide
  · obtain ⟨d, -, rfl⟩ := List.mem_map.mp hmem
    exact hchar d

/-- Among the keywords without capitals, those that cannot be written raw are reserved. -/
theorem languageKeywords_cases : ∀ word ∈ languageKeywords,
    word ∈ reserved ∨ word ∈ keywords ∨ word.toList.any isCapital = true := by
  decide

theorem raw_of_mem_keywords : ∀ word ∈ keywords, word ∈ languageKeywords ∧ word ∉ pathKeywords := by decide

/-- A reserved or taken word with an underscore is no keyword. -/
theorem legal_append_underscore : ∀ word ∈ reserved ++ taken, Legal (word ++ "_") := by
  have hplain : ∀ word ∈ reserved ++ taken, isIdentifier (word ++ "_").toList = true ∧ word ++ "_" ≠ "_" ∧
      word ++ "_" ∉ languageKeywords := by decide
  intro word hword
  obtain ⟨hidentifier, hnamed, hfree⟩ := hplain word hword
  exact .plain hidentifier hnamed hfree

/-- An escaped name in lower case is legal. -/
theorem legal_escaped {ident : String} (hidentifier : isIdentifier ident.toList = true)
    (hsmall : ∀ c ∈ ident.toList, isCapital c = false) : Legal (escaped ident) := by
  unfold escaped
  split
  · rename_i hreserved
    exact legal_append_underscore ident (List.mem_append_left taken (by simpa using hreserved))
  · rename_i hreserved
    split
    · rename_i hkeyword
      obtain ⟨hword, hraw⟩ := raw_of_mem_keywords ident (by simpa using hkeyword)
      exact .raw hword hraw rfl
    · rename_i hkeyword
      have hreserved : ident ∉ reserved := by simpa using hreserved
      have hkeyword : ident ∉ keywords := by simpa using hkeyword
      refine .plain hidentifier (fun hblank => hreserved (hblank ▸ by decide)) fun hmem => ?_
      -- The keywords of the language that are not escaped have a capital letter.
      rcases languageKeywords_cases ident hmem with hword | hword | hcapital
      · exact hreserved hword
      · exact hkeyword hword
      · obtain ⟨c, hc, hcapital⟩ := List.any_eq_true.mp hcapital
        rw [hsmall c hc] at hcapital
        cases hcapital

theorem legal_escaped_accessorChars (key : List Char) : Legal (escaped (String.ofList (accessorChars key))) := by
  refine legal_escaped ?_ ?_
  · rw [String.toList_ofList]
    exact isIdentifier_accessorChars key
  · intro c hc
    rw [String.toList_ofList] at hc
    exact not_isCapital_of_mem_accessorChars hc

theorem legal_ofParameter (name : String) : Legal (ofParameter name) := by
  unfold ofParameter
  simp only
  split
  · rename_i htaken
    exact legal_append_underscore _ (List.mem_append_right reserved (by simpa using htaken))
  · exact legal_escaped_accessorChars _

/-! ## §3 Variants -/

/-- The words of a locale in lower case: the letters and digits between other characters. -/
def localeWords (locale : String) : List (List Char) :=
  ((splitBy (fun c => !isAlphanumeric c) locale.toList).filter (· ≠ [])).map (List.map lowerAscii)

/-- A word of a locale: small letters and digits. -/
structure IsWord (word : List Char) : Prop where
  ne_nil : word ≠ []
  alphanumeric : ∀ c ∈ word, isAlphanumeric c = true
  small : ∀ c ∈ word, isCapital c = false

theorem isWord_of_mem_localeWords {locale : String} {word : List Char} (h : word ∈ localeWords locale) :
    IsWord word := by
  obtain ⟨part, hpart, rfl⟩ := List.mem_map.mp h
  obtain ⟨hpart, hne⟩ := List.mem_filter.mp hpart
  refine ⟨by simpa using hne, fun c hc => ?_, fun c hc => ?_⟩
  · obtain ⟨d, hd, rfl⟩ := List.mem_map.mp hc
    exact isAlphanumeric_lowerAscii (by simpa using not_of_mem_splitBy hpart hd)
  · obtain ⟨d, -, rfl⟩ := List.mem_map.mp hc
    exact not_isCapital_lowerAscii d

theorem capitalized_map_lowerAscii (part : List Char) : capitalized (part.map lowerAscii) = capitalized part := by
  have hlower : ∀ c, lowerAscii (lowerAscii c) = lowerAscii c := fun c =>
    lowerAscii_of_not_isCapital (not_isCapital_lowerAscii c)
  cases part with
  | nil => rfl
  | cons c part => simp [capitalized, hlower]

/-- A variant is made of the words of its locale. -/
theorem variantChars_eq (locale : String) :
    variantChars locale.toList = guardStart 'L' ((localeWords locale).flatMap capitalized) := by
  have hfilter : ∀ parts : List (List Char),
      (parts.filter (· ≠ [])).flatMap capitalized = parts.flatMap capitalized := by
    intro parts
    induction parts with
    | nil => rfl
    | cons part parts ih => cases part <;> simp_all [capitalized]
  rw [variantChars, localeWords, List.flatMap_map, ← hfilter]
  simp only [capitalized_map_lowerAscii]

/-- A capitalized word is the word behind its first character. -/
theorem IsWord.capitalized_cons {c : Char} {cs : List Char} (h : IsWord (c :: cs)) :
    capitalized (c :: cs) = upperAscii c :: cs := by
  have hcs : cs.map lowerAscii = cs := by
    rw [List.map_congr_left fun d hd => lowerAscii_of_not_isCapital (h.small d (List.mem_cons_of_mem c hd)),
      List.map_id']
  rw [capitalized, lowerAscii_of_not_isCapital (h.small c List.mem_cons_self), hcs]

/-- A variant begins with a capital. -/
theorem head_variantChars (locale : String) : ∃ c cs, variantChars locale.toList = c :: cs ∧ isCapital c = true := by
  rw [variantChars_eq]
  cases hwords : localeWords locale with
  | nil => exact ⟨'L', [], rfl, rfl⟩
  | cons word words =>
    have hword : IsWord word := isWord_of_mem_localeWords (hwords ▸ List.mem_cons_self)
    cases word with
    | nil => exact absurd rfl hword.ne_nil
    | cons c cs =>
      rw [List.flatMap_cons, hword.capitalized_cons, List.cons_append, guardStart]
      by_cases hdigit : isDigit (upperAscii c) = true
      · exact ⟨'L', _, if_pos hdigit, rfl⟩
      · have halphanumeric := hword.alphanumeric c List.mem_cons_self
        exact ⟨_, _, if_neg hdigit, (isCapital_or_isDigit_upperAscii halphanumeric).resolve_right hdigit⟩

/-- The one word whose variant is the keyword with a capital. -/
theorem variantChars_eq_Self_iff (locale : String) :
    variantChars locale.toList = ['S', 'e', 'l', 'f'] ↔ localeWords locale = [['s', 'e', 'l', 'f']] := by
  rw [variantChars_eq]
  refine ⟨fun h => ?_, fun h => by rw [h]; decide⟩
  cases hwords : localeWords locale with
  | nil => rw [hwords] at h; exact absurd h (by decide)
  | cons word words =>
    have hword : ∀ w ∈ word :: words, IsWord w := fun w hw => isWord_of_mem_localeWords (hwords ▸ hw)
    cases word with
    | nil => exact absurd rfl (hword _ List.mem_cons_self).ne_nil
    | cons c cs =>
      have hcons := hword (c :: cs) List.mem_cons_self
      rw [hwords, List.flatMap_cons, hcons.capitalized_cons, List.cons_append, guardStart] at h
      split at h
      · exact absurd h (by simp)
      · obtain ⟨hfirst, hrest⟩ := List.cons.inj h
        obtain rfl : c = 's' := by
          rw [← lowerAscii_upperAscii (hcons.small c List.mem_cons_self), hfirst]
          rfl
        cases words with
        | nil =>
          rw [List.flatMap_nil, List.append_nil] at hrest
          rw [hrest]
        | cons next words =>
          -- A second word brings a capital or a digit.
          have hnext := hword next (List.mem_cons_of_mem _ List.mem_cons_self)
          cases next with
          | nil => exact absurd rfl hnext.ne_nil
          | cons d ds =>
            rw [List.flatMap_cons, hnext.capitalized_cons] at hrest
            have hmem : upperAscii d ∈ ['e', 'l', 'f'] := by
              rw [← hrest]
              simp
            have hneither : (['e', 'l', 'f'].all fun e => !(isCapital e || isDigit e)) = true := by decide
            have hd := isCapital_or_isDigit_upperAscii (hnext.alphanumeric d List.mem_cons_self)
            exact absurd hd (by simpa using List.all_eq_true.mp hneither _ hmem)

theorem ofLocale_eq_Self_iff (locale : String) : ofLocale locale = "Self" ↔ localeWords locale = ["self".toList] := by
  rw [ofLocale, ← String.toList_inj, String.toList_ofList]
  exact variantChars_eq_Self_iff locale

/-- Of the keywords, only one begins with a capital. -/
theorem eq_Self_of_capital : ∀ word ∈ languageKeywords, (word.toList.head?.any isCapital) = true → word = "Self" := by
  decide

/-- A variant is legal unless it is the keyword with a capital, which cannot be written raw. -/
theorem legal_ofLocale_iff (locale : String) : Legal (ofLocale locale) ↔ ofLocale locale ≠ "Self" := by
  refine ⟨fun hlegal hself => ?_, fun hne => ?_⟩
  · rw [hself] at hlegal
    cases hlegal with
    | plain _ _ hfree => exact hfree (by decide)
    | raw _ _ hmark => exact raw_ne_of_isIdentifier (by decide) _ hmark.symm
  -- The name begins with a capital letter, as only one keyword does.
  · obtain ⟨c, cs, hchars, hcapital⟩ := head_variantChars locale
    have hhead : ((ofLocale locale).toList.head?.any isCapital) = true := by
      rw [ofLocale, String.toList_ofList, hchars]
      simpa using hcapital
    refine .plain ?_ (fun hblank => ?_) fun hkeyword => hne (eq_Self_of_capital _ hkeyword hhead)
    · rw [ofLocale, String.toList_ofList]
      exact isIdentifier_variantChars _
    · rw [hblank] at hhead
      exact absurd hhead (by decide)

/-! ## §4 The generated module -/

/-- Contracts, properties, parameters, methods and accessors always have legal names. So have the variants of locales,
apart from those whose only word is `self`: they get a keyword that cannot even be written raw. -/
theorem legal_names (name locale : String) :
    (Legal (ofContract name) ∧ Legal (ofProperty name) ∧ Legal (ofParameter name) ∧ Legal (ofMethod name) ∧
      Legal (escaped (accessor name))) ∧
    (Legal (ofLocale locale) ↔ localeWords locale ≠ ["self".toList]) := by
  refine ⟨⟨?contract, ?property, ?parameter, ?method, ?accessor⟩, ?variant⟩
  case contract => exact legal_escaped_accessorChars _
  case property => exact legal_escaped_accessorChars _
  case parameter => exact legal_ofParameter name
  case method => exact legal_escaped_accessorChars _
  case accessor => exact legal_escaped_accessorChars _
  case variant => rw [legal_ofLocale_iff, ne_eq, ne_eq, ofLocale_eq_Self_iff]

theorem not_legal_ofLocale_self : ofLocale "self" = "Self" ∧ ¬ Legal (ofLocale "self") := by
  have hself : ofLocale "self" = "Self" := by decide
  exact ⟨hself, fun hlegal => (legal_ofLocale_iff "self").mp hlegal hself⟩

end Phrasebook.Name
