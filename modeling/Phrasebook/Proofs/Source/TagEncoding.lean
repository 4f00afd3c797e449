import Phrasebook.Proofs.Source.TagSpelling

/-!
# What the rewriting of a tag keeps

A tag is rewritten to a form that it may have. Nothing of what it stands for is lost: when the escapes of both are read
back, the octets are the same, whatever characters the tag has, and the new form is not rewritten again.

## Layers

1. **Octets**: `octets?` reads a text with escapes as octets, the other characters being encoded in UTF-8.
2. **Characters**: a written character is read back as its octets, and a text by induction on its escapes.
3. **Tags**: `Payload` is what a tag stands for, and `Kept` are the tags that are left alone.
4. **Rewritten tags**: every other tag is rewritten to another spelling of its payload.
-/

namespace Phrasebook.SourceTag

open Phrasebook.Name Phrasebook.Text

/-! ## §1 Octets -/

/-- The octets that a text stands for when its escapes are read, if every escape has its two digits. -/
def octets? : List Char → Option (List UInt8)
  | [] => some []
  | '%' :: a :: b :: cs =>
    match Yaml.hexValue? a, Yaml.hexValue? b with
    | some high, some low => (octets? cs).map (UInt8.ofNat (high * 16 + low) :: ·)
    | _, _ => none
  | c :: cs => if c = '%' then none else (octets? cs).map (String.utf8EncodeChar c ++ ·)

/-- Behind every percent sign of a text stand two digits. -/
def Escaped (s : List Char) : Prop :=
  ∀ before behind, s = before ++ '%' :: behind →
    ∃ a b rest, behind = a :: b :: rest ∧ (Yaml.hexValue? a).isSome ∧ (Yaml.hexValue? b).isSome

theorem Escaped.of_append (before : List Char) {s : List Char} (h : Escaped (before ++ s)) : Escaped s := by
  intro front behind hs
  apply h (before ++ front)
  rw [hs, List.append_assoc]

/-- A bracket is no digit, so that an escape in front of it is complete without it. -/
theorem Escaped.of_append_bracket {s : List Char} (h : Escaped (s ++ ['>'])) : Escaped s := by
  intro before behind hs
  obtain ⟨a, b, rest, hbehind, ha, hb⟩ := h before (behind ++ ['>']) (by rw [hs, List.append_assoc, List.cons_append])
  rcases behind with _ | ⟨x, _ | ⟨y, behind⟩⟩
  · cases hbehind
  · cases hbehind
    cases hb
  · cases hbehind
    exact ⟨a, b, behind, rfl, ha, hb⟩

theorem Escaped.cons {c : Char} (hc : c ≠ '%') {cs : List Char} (h : Escaped cs) : Escaped (c :: cs) := by
  rintro (_ | ⟨d, before⟩) behind hs
  · exact absurd (List.cons.inj hs).1 hc
  · exact h before behind (List.cons.inj hs).2

theorem ne_percent_of_hexValue? {a : Char} (ha : (Yaml.hexValue? a).isSome) : a ≠ '%' := by
  rintro rfl
  cases ha

theorem Escaped.escape {a b : Char} (ha : (Yaml.hexValue? a).isSome) (hb : (Yaml.hexValue? b).isSome)
    {cs : List Char} (h : Escaped cs) : Escaped ('%' :: a :: b :: cs) := by
  rintro (_ | ⟨d, before⟩) behind hs
  · cases hs
    exact ⟨a, b, cs, rfl, ha, hb⟩
  · have hdigits := (h.cons (ne_percent_of_hexValue? hb)).cons (ne_percent_of_hexValue? ha)
    exact hdigits before behind (List.cons.inj hs).2

theorem octets?_escape {a b : Char} {high low : Nat} (ha : Yaml.hexValue? a = some high)
    (hb : Yaml.hexValue? b = some low) (cs : List Char) :
    octets? ('%' :: a :: b :: cs) = (octets? cs).map (UInt8.ofNat (high * 16 + low) :: ·) := by
  rw [octets?, ha, hb]

theorem octets?_cons {c : Char} (hc : c ≠ '%') (cs : List Char) :
    octets? (c :: cs) = (octets? cs).map (String.utf8EncodeChar c ++ ·) := by
  rw [octets?, if_neg hc]
  exact fun _ _ _ hpercent => absurd hpercent hc

/-- A text has octets just when all its escapes are complete. -/
theorem exists_octets_iff {s : List Char} : (∃ octets, octets? s = some octets) ↔ Escaped s := by
  constructor
  · rintro ⟨octets, h⟩
    fun_induction octets? s generalizing octets with
    | case1 => exact fun before behind hs => absurd hs (by simp)
    | case2 a b cs high low hb ha ih =>
      obtain ⟨rest, hrest, -⟩ := Option.map_eq_some_iff.mp h
      exact (ih rest hrest).escape (by rw [ha]; rfl) (by rw [hb]; rfl)
    | case3 a b cs hdigits => cases h
    | case4 => cases h
    | case5 c cs _ hc ih =>
      obtain ⟨rest, hrest, -⟩ := Option.map_eq_some_iff.mp h
      exact (ih rest hrest).cons hc
  · -- An escape that the reading stops at has a percent sign that the condition is about.
    intro h
    fun_induction octets? s with
    | case1 => exact ⟨[], rfl⟩
    | case2 a b cs high low hb ha ih =>
      obtain ⟨octets, hoctets⟩ := ih (h.of_append ['%', a, b])
      exact ⟨_, by rw [hoctets]; rfl⟩
    | case3 a b cs hdigits =>
      obtain ⟨a', b', rest, hbehind, ha, hb⟩ := h [] _ rfl
      cases hbehind
      obtain ⟨high, hhigh⟩ := Option.isSome_iff_exists.mp ha
      obtain ⟨low, hlow⟩ := Option.isSome_iff_exists.mp hb
      exact absurd hlow (hdigits high low hhigh)
    | case4 cs hshort =>
      obtain ⟨a, b, rest, hbehind, -⟩ := h [] cs rfl
      exact absurd hbehind (hshort a b rest rfl)
    | case5 c cs _ hc ih =>
      obtain ⟨octets, hoctets⟩ := ih (h.of_append [c])
      exact ⟨_, by rw [hoctets]; rfl⟩

/-! ## §2 Characters -/

theorem toList_loop (bs : ByteArray) (i : Nat) (read : List UInt8) :
    ByteArray.toList.loop bs i read = read.reverse ++ bs.data.toList.drop i := by
  fun_induction ByteArray.toList.loop bs i read with
  | case1 i read hlt ih =>
    have hlength : i < bs.data.toList.length := hlt
    have hget : bs.get! i = bs.data.toList[i] := by
      rw [Array.getElem_toList]
      exact getElem!_pos bs.data i hlength
    rw [ih, hget, List.reverse_cons, List.append_assoc, List.drop_eq_getElem_cons hlength, List.singleton_append]
  | case2 i read hge =>
    have hge : bs.data.toList.length ≤ i := Nat.le_of_not_lt hge
    rw [List.drop_eq_nil_of_le hge, List.append_nil]

/-- The octets in which the rewriting writes a character. -/
theorem toList_toUTF8 (c : Char) : (String.ofList [c]).toUTF8.toList = String.utf8EncodeChar c := by
  have hbytes : (String.ofList [c]).toUTF8 = (String.utf8EncodeChar c).toByteArray := by
    rw [String.toUTF8_eq_toByteArray, String.toByteArray_ofList, List.utf8Encode, List.flatMap_singleton]
  rw [hbytes, ByteArray.toList, toList_loop, List.data_toByteArray]
  rfl

theorem hexValue?_digitChar {d : Nat} (h : d < 16) : Yaml.hexValue? (Nat.digitChar d).toUpper = some d := by
  -- There are sixteen digits.
  revert d
  decide

/-- An octet is read back from its two digits. -/
theorem octets?_escapedOctet (octet : UInt8) (cs : List Char) :
    octets? (escapedOctet octet.toNat ++ cs) = (octets? cs).map (octet :: ·) := by
  have hlt : octet.toNat < 256 := octet.toNat_lt
  have hhigh : octet.toNat / 16 < 16 := by omega
  have hlow : octet.toNat % 16 < 16 := by omega
  show octets? ('%' :: _ :: _ :: cs) = _
  rw [octets?_escape (hexValue?_digitChar hhigh) (hexValue?_digitChar hlow), Nat.div_add_mod', UInt8.ofNat_toNat]

theorem octets?_escapedOctets (octets : List UInt8) (cs : List Char) :
    octets? ((octets.flatMap fun b => escapedOctet b.toNat) ++ cs) = (octets? cs).map (octets ++ ·) := by
  induction octets with
  | nil => simp
  | cons octet octets ih =>
    rw [List.flatMap_cons, List.append_assoc, octets?_escapedOctet, ih, Option.map_map]
    rfl

/-- A character is read back as its octets, whether a tag may hold it or not. -/
theorem octets?_writtenChar {c : Char} (hc : c ≠ '%') (cs : List Char) :
    octets? (writtenChar c ++ cs) = (octets? cs).map (String.utf8EncodeChar c ++ ·) := by
  by_cases hheld : isTagChar c = true
  · rw [writtenChar, if_pos hheld]
    exact octets?_cons hc cs
  · rw [writtenChar, if_neg hheld, toList_toUTF8]
    exact octets?_escapedOctets _ cs

/-- A tag may hold a digit of an octet. -/
theorem isTagChar_of_hexValue? {a : Char} (ha : (Yaml.hexValue? a).isSome) : isTagChar a = true := by
  -- A hexadecimal digit is a digit or one of the first letters.
  suffices hword : isAlphanumeric a = true by rw [isTagChar, hword, Bool.true_or]
  rw [isAlphanumeric_iff]
  have hlower : 'f' ≤ 'z' := by decide
  have hupper : 'F' ≤ 'Z' := by decide
  unfold Yaml.hexValue? at ha
  split at ha
  · rename_i hdigit
    simp only [Bool.and_eq_true, decide_eq_true_eq] at hdigit
    exact .inl hdigit
  · split at ha
    · rename_i hletter
      simp only [Bool.and_eq_true, decide_eq_true_eq] at hletter
      exact .inr (.inl ⟨hletter.1, Char.le_trans hletter.2 hlower⟩)
    · split at ha
      · rename_i hletter
        simp only [Bool.and_eq_true, decide_eq_true_eq] at hletter
        exact .inr (.inr ⟨hletter.1, Char.le_trans hletter.2 hupper⟩)
      · cases ha

theorem writtenChar_of_hexValue? {a : Char} (ha : (Yaml.hexValue? a).isSome) : writtenChar a = [a] := by
  rw [writtenChar, if_pos (isTagChar_of_hexValue? ha)]

/-- A text and its written form have the same octets: complete escapes are not escaped again. -/
theorem octets?_written {s : List Char} {octets : List UInt8} (h : octets? s = some octets) :
    octets? (s.flatMap writtenChar) = some octets := by
  fun_induction octets? s generalizing octets with
  | case1 => exact h
  | case2 a b cs high low hb ha ih =>
    obtain ⟨rest, hrest, rfl⟩ := Option.map_eq_some_iff.mp h
    -- A percent sign and its digits are among the characters that a tag may hold.
    have hpercent : writtenChar '%' = ['%'] := rfl
    rw [List.flatMap_cons, List.flatMap_cons, List.flatMap_cons, hpercent, writtenChar_of_hexValue? (by rw [ha]; rfl),
      writtenChar_of_hexValue? (by rw [hb]; rfl)]
    show octets? ('%' :: a :: b :: cs.flatMap writtenChar) = _
    rw [octets?_escape ha hb, ih hrest, Option.map_some]
  | case3 => cases h
  | case4 => cases h
  | case5 c cs _ hc ih =>
    obtain ⟨rest, hrest, rfl⟩ := Option.map_eq_some_iff.mp h
    rw [List.flatMap_cons, octets?_writtenChar hc, ih hrest, Option.map_some]

/-- What is written has only characters that a tag may hold. -/
theorem isTagChar_of_mem_written {s : List Char} {d : Char} (h : d ∈ s.flatMap writtenChar) : isTagChar d = true := by
  obtain ⟨c, -, hd⟩ := List.mem_flatMap.mp h
  by_cases hheld : isTagChar c = true
  · rw [writtenChar, if_pos hheld, List.mem_singleton] at hd
    exact hd ▸ hheld
  · rw [writtenChar, if_neg hheld] at hd
    obtain ⟨octet, -, hd⟩ := List.mem_flatMap.mp hd
    have hlt : octet.toNat < 256 := octet.toNat_lt
    have hdigit : ∀ {n : Nat}, n < 16 → isTagChar (Nat.digitChar n).toUpper = true := fun hn =>
      isTagChar_of_hexValue? (by rw [hexValue?_digitChar hn]; rfl)
    simp only [escapedOctet, List.mem_cons, List.not_mem_nil, or_false] at hd
    -- An octet is written as a percent sign and two hexadecimal digits.
    rcases hd with rfl | rfl | rfl
    · rfl
    · exact hdigit (by omega)
    · exact hdigit (by omega)

/-! ## §3 Tags -/

/-- What a tag stands for: the text behind its mark, or the one between its brackets without a mark there. -/
inductive Payload : List Char → List Char → Prop where
  | mark {s : List Char} (h : s.head? ≠ some '<') : Payload ('!' :: s) s
  | brackets {s : List Char} (h : s.head? ≠ some '!') : Payload ('!' :: '<' :: (s ++ ['>'])) s
  | bracketsMark (s : List Char) : Payload ('!' :: '<' :: '!' :: (s ++ ['>'])) s

/-- The tags that are left alone. -/
inductive Kept : List Char → Prop where
  /-- A mark without a name. -/
  | bare : Kept ['!']
  /-- A tag of the language. -/
  | secondary (s : List Char) : Kept ('!' :: '!' :: s)
  /-- No bracket closes the tag. -/
  | unclosed {s : List Char} (h : s.getLast? ≠ some '>') : Kept ('!' :: '<' :: s)
  /-- A URI of the scheme of tags. -/
  | uri (s : List Char) : Kept ('!' :: '<' :: ('t' :: 'a' :: 'g' :: ':' :: s ++ ['>']))
  /-- A value may have the tag as it is. -/
  | held {s : List Char} (h : ∀ c ∈ s, isTagChar c = true) : Kept ('!' :: s)

theorem Payload.escaped {token payload : List Char} (h : Payload token payload) (hescaped : Escaped token) :
    Escaped payload := by
  cases h with
  | mark => exact hescaped.of_append ['!']
  | brackets => exact (hescaped.of_append ['!', '<']).of_append_bracket
  | bracketsMark => exact (hescaped.of_append ['!', '<', '!']).of_append_bracket

theorem payload?_unclosed {s : List Char} (h : s.getLast? ≠ some '>') : payload? ('!' :: '<' :: s) = none := by
  have hopen : dropStart? ['!', '<'] ('!' :: '<' :: s) = some s := rfl
  rw [payload?, hopen]
  simp only [dropEnd?_eq_none_iff.mpr h]

/-- A tag that is left alone has no other form. -/
theorem Kept.normalizeToken?_eq {token : List Char} (h : Kept token) : normalizeToken? token = none := by
  have hbrackets : ∀ {s}, payload? ('!' :: '<' :: s) = none → normalizeToken? ('!' :: '<' :: s) = none := by
    intro s hs
    rw [normalizeToken?, hs]
    exact ite_self none
  -- A token is kept because it has none of the forms that are looked for, or because its text is the same again.
  cases h with
  | bare => rfl
  | secondary s => rfl
  | unclosed hclosed =>
    exact hbrackets (payload?_unclosed hclosed)
  | uri s =>
    apply hbrackets
    rw [payload?_brackets]
    rfl
  | @held s hheld =>
    rcases s with _ | ⟨c, s⟩
    · rfl
    · by_cases hc : c = '!'
      · rw [hc]
        rfl
      · have hless : c ≠ '<' := by
          rintro rfl
          exact absurd (hheld '<' List.mem_cons_self) (by decide)
        have hdouble : dropStart? ['!', '!'] ('!' :: c :: s) = none := by simp [dropStart?, Ne.symm hc]
        rw [normalizeToken?_of_payload? (by simp) hdouble (payload?_mark (by simpa using hless)),
          flatMap_writtenChar_of_isTagChar hheld, if_pos rfl]

/-- A tag with a payload is left alone when it is the written form of the payload already. -/
theorem kept_or_rewritten_of_payload? {s payload : List Char} (hdouble : dropStart? ['!', '!'] ('!' :: s) = none)
    (hpayload : payload? ('!' :: s) = some payload) (h : Payload ('!' :: s) payload) :
    Kept ('!' :: s) ∨ ∃ payload, Payload ('!' :: s) payload ∧
      normalizeToken? ('!' :: s) = some ('!' :: payload.flatMap writtenChar) := by
  by_cases hbare : '!' :: s = ['!']
  · left
    rw [hbare]
    exact .bare
  · have hrewritten := normalizeToken?_of_payload? hbare hdouble hpayload
    split at hrewritten
    -- What is written is what was there: then all its characters are allowed.
    · rename_i hsame
      left
      rw [← hsame]
      exact .held fun c hc => isTagChar_of_mem_written hc
    · right
      exact ⟨payload, h, hrewritten⟩

theorem kept_or_rewritten_brackets (s : List Char) :
    Kept ('!' :: '<' :: s) ∨ ∃ payload, Payload ('!' :: '<' :: s) payload ∧
      normalizeToken? ('!' :: '<' :: s) = some ('!' :: payload.flatMap writtenChar) := by
  cases hend : dropEnd? ['>'] s with
  | none =>
    left
    exact .unclosed (dropEnd?_eq_none_iff.mp hend)
  | some inner =>
    obtain rfl := eq_append_of_dropEnd? hend
    cases huri : dropStart? ['t', 'a', 'g', ':'] inner with
    | some rest =>
      left
      rw [eq_append_of_dropStart? huri]
      exact .uri rest
    | none =>
      have hpayload : payload? ('!' :: '<' :: (inner ++ ['>'])) = some ((dropStart? ['!'] inner).getD inner) := by
        rw [payload?_brackets, huri]
        rfl
      apply kept_or_rewritten_of_payload? rfl hpayload
      cases hmark : dropStart? ['!'] inner with
      | some rest =>
        rw [eq_append_of_dropStart? hmark]
        exact .bracketsMark rest
      | none =>
        -- A mark at the start would have been cut off.
        refine .brackets fun hhead => ?_
        obtain ⟨rest, rfl⟩ := List.head?_eq_some_iff.mp hhead
        cases hmark

/-- A tag is left alone, or rewritten to the written form of its payload. -/
theorem kept_or_rewritten (s : List Char) :
    Kept ('!' :: s) ∨ ∃ payload, Payload ('!' :: s) payload ∧
      normalizeToken? ('!' :: s) = some ('!' :: payload.flatMap writtenChar) := by
  by_cases hbrackets : s.head? = some '<'
  · obtain ⟨rest, rfl⟩ := List.head?_eq_some_iff.mp hbrackets
    exact kept_or_rewritten_brackets rest
  · cases hdouble : dropStart? ['!', '!'] ('!' :: s) with
    | some rest =>
      left
      rw [eq_append_of_dropStart? hdouble]
      exact .secondary rest
    | none => exact kept_or_rewritten_of_payload? hdouble (payload?_mark hbrackets) (.mark hbrackets)

/-! ## §4 Rewritten tags -/

/-- The form that a tag is rewritten to. -/
theorem of_normalizeToken? {s tag : List Char} (h : normalizeToken? ('!' :: s) = some tag) :
    ∃ payload, Payload ('!' :: s) payload ∧ tag = '!' :: payload.flatMap writtenChar := by
  rcases kept_or_rewritten s with hkept | ⟨payload, hpayload, hrewritten⟩
  · rw [hkept.normalizeToken?_eq] at h
    cases h
  · exact ⟨payload, hpayload, Option.some.inj (h.symm.trans hrewritten)⟩

theorem normalizeToken?_eq_none_iff {s : List Char} : normalizeToken? ('!' :: s) = none ↔ Kept ('!' :: s) := by
  constructor
  · intro h
    rcases kept_or_rewritten s with hkept | ⟨payload, -, hrewritten⟩
    · exact hkept
    · rw [h] at hrewritten
      cases hrewritten
  · exact Kept.normalizeToken?_eq

/-- The new form of a tag is one that may be held, and so it is not rewritten again. -/
theorem normalizeToken?_idem {s tag : List Char} (h : normalizeToken? ('!' :: s) = some tag) :
    normalizeToken? tag = none := by
  obtain ⟨payload, -, rfl⟩ := of_normalizeToken? h
  exact normalizeToken?_eq_none_iff.mpr (.held fun c hc => isTagChar_of_mem_written hc)

/-- **Tags** keep what they stand for: a rewritten tag holds only what a tag may hold, its escapes are read as the same
octets as those of the payload of the old one, and it is not rewritten again. The other tags are those to be kept. -/
theorem normalizeToken?_preserves {s : List Char} (h : Escaped ('!' :: s)) :
    (∀ tag, normalizeToken? ('!' :: s) = some tag →
      ∃ body payload octets, tag = '!' :: body ∧ (∀ c ∈ body, isTagChar c = true) ∧ Payload ('!' :: s) payload ∧
        octets? payload = some octets ∧ octets? body = some octets ∧ normalizeToken? tag = none) ∧
    (normalizeToken? ('!' :: s) = none ↔ Kept ('!' :: s)) := by
  refine ⟨fun tag htag => ?_, normalizeToken?_eq_none_iff⟩
  have hidem := normalizeToken?_idem htag
  obtain ⟨payload, hpayload, rfl⟩ := of_normalizeToken? htag
  obtain ⟨octets, hoctets⟩ := exists_octets_iff.mpr (hpayload.escaped h)
  exact ⟨_, payload, octets, rfl, fun c hc => isTagChar_of_mem_written hc, hpayload, hoctets,
    octets?_written hoctets, hidem⟩

/-- A character of two octets is written with two escapes, and the escape of a comma is left as it is. -/
theorem normalizeToken?_preserves_umlaut :
    Escaped "!<!ä%2C>".toList ∧ normalizeToken? "!<!ä%2C>".toList = some "!%C3%A4%2C".toList ∧
    ∃ payload octets, Payload "!<!ä%2C>".toList payload ∧ octets? payload = some octets ∧
      octets? "%C3%A4%2C".toList = some octets ∧ octets = [0xC3, 0xA4, 0x2C] := by
  have hread : octets? ('!' :: "<!ä%2C>".toList)
      = some ([0x21, 0x3C, 0x21] ++ [0xC3, 0xA4] ++ [0x2C] ++ [0x3E]) := by decide +kernel
  have hescaped : Escaped ('!' :: "<!ä%2C>".toList) := exists_octets_iff.mp ⟨_, hread⟩
  have hrewritten : normalizeToken? ('!' :: "<!ä%2C>".toList) = some ('!' :: "%C3%A4%2C".toList) := by decide +kernel
  obtain ⟨body, payload, octets, hbody, -, hpayload, hoctets, hwritten, -⟩ :=
    (normalizeToken?_preserves hescaped).1 _ hrewritten
  cases hbody
  have hsame : octets? "%C3%A4%2C".toList = some [0xC3, 0xA4, 0x2C] := by decide +kernel
  exact ⟨hescaped, hrewritten, payload, octets, hpayload, hoctets, hwritten,
    Option.some.inj (hwritten.symm.trans hsame)⟩

end Phrasebook.SourceTag
