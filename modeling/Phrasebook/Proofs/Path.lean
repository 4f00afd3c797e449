import Phrasebook.Path
import Mathlib.Data.List.DropRight

/-!
# Paths and the names in them

A path says the same as the names in it, together with whether it starts at the root: the segments that mean nothing
can be left out. The path of the directory around has one name less.

## Layers

- `segments_join`, `segments_append_slash`, `isAbsolute_iff`: paths as lists of segments.
- `names`: the segments that mean something.
- `parent?_cases`, `IsParent`: what the path of a directory shares with a path in it.
- `exists_segments_joined`: a name seen from a directory is a last segment behind those of the directory.
- `Same`, `Plain`: paths that lead to one place, and paths that are written with nothing but their names.
-/

namespace Phrasebook.Path

open Phrasebook.Text

/-! ## §1 Segments -/

theorem sep_not_mem_of_mem_splitOn {sep : Char} {s part : List Char} (h : part ∈ splitOn sep s) : sep ∉ part := by
  unfold splitOn at h
  -- By induction on the text: a separator begins a part, any other character joins the first one.
  induction s generalizing part with
  | nil =>
    obtain rfl := List.mem_singleton.mp h
    exact List.not_mem_nil
  | cons c s ih =>
    rw [splitBy] at h
    split at h
    · rcases List.mem_cons.mp h with rfl | hmem
      · exact List.not_mem_nil
      · exact ih hmem
    · rename_i hc
      have hne : sep ≠ c := fun heq => hc (by simp [heq])
      split at h
      · obtain rfl := List.mem_singleton.mp h
        simpa using hne
      · rename_i first parts hparts
        rcases List.mem_cons.mp h with rfl | hmem
        · exact List.not_mem_cons_of_ne_of_not_mem hne (ih (by simp [hparts]))
        · exact ih (by simp [hparts, hmem])

theorem slash_not_mem_of_mem_segments {path s : String} (h : s ∈ segments path) : '/' ∉ s.toList := by
  obtain ⟨part, hpart, rfl⟩ := List.mem_map.mp h
  rw [String.toList_ofList]
  exact sep_not_mem_of_mem_splitOn hpart

theorem segments_ne_nil (path : String) : segments path ≠ [] := by
  rw [segments, splitOn_eq, ne_eq, List.map_eq_nil_iff]
  exact List.splitOn_ne_nil _ _

/-- Segments that are joined with slashes are those of the path. -/
theorem segments_join {ss : List String} (hne : ss ≠ []) (h : ∀ s ∈ ss, '/' ∉ s.toList) :
    segments (join "/" ss) = ss := by
  have hparts : ∀ l ∈ ss.map String.toList, '/' ∉ l := by
    intro l hl
    obtain ⟨s, hs, rfl⟩ := List.mem_map.mp hl
    exact h s hs
  have hsplit := List.splitOn_intercalate '/' hparts (by simpa using hne)
  rw [segments, join, String.toList_ofList, splitOn_eq]
  show ((['/'].intercalate (ss.map String.toList)).splitOn '/').map String.ofList = ss
  rw [hsplit, List.map_map]
  simp [Function.comp_def]

theorem segments_append_slash (a b : String) : segments (a ++ "/" ++ b) = segments a ++ segments b := by
  have hchars : (a ++ "/" ++ b).toList = a.toList ++ '/' :: b.toList := by simp
  rw [segments, hchars, splitOn_eq, List.splitOn_append_cons_self, List.map_append, segments, segments, splitOn_eq,
    splitOn_eq]

theorem segments_of_noSlash {s : String} (h : '/' ∉ s.toList) : segments s = [s] := by
  rw [segments, splitOn_eq, List.splitOn_eq_singleton h]
  simp

/-- A path is absolute when its first segment is empty and not the only one. -/
theorem isAbsolute_iff {path : String} : isAbsolute path = true ↔ ∃ rest, rest ≠ [] ∧ segments path = "" :: rest := by
  unfold isAbsolute segments splitOn
  cases hpath : path.toList with
  | nil => simp [splitBy]
  | cons c cs =>
    have hne : splitBy (· == '/') cs ≠ [] := by
      rw [splitBy_eq_splitOnP]
      exact List.splitOnP_ne_nil _ cs
    by_cases hc : c = '/'
    · simp [splitBy, hc, hne]
    · obtain ⟨part, parts, hparts⟩ := List.exists_cons_of_ne_nil hne
      have hfirst : String.ofList (c :: part) ≠ "" := by
        intro hempty
        have := congrArg String.toList hempty
        simp at this
      simp [splitBy, hc, hparts]

/-! ## §2 Names -/

/-- The names in a path: its segments without those that mean nothing. -/
def names (path : String) : List String := (segments path).filter fun s => !isVoid s

/-- How many segments of a path are not empty. -/
def depth (path : String) : Nat := ((segments path).filter fun s => s ≠ "").length

theorem depth_le_length (path : String) : depth path ≤ (segments path).length := List.length_filter_le ..

/-- Segments make a path with these segments, but for an empty one that may stand behind the root. -/
theorem filter_segments_ofSegments {ss : List String} (h : ∀ s ∈ ss, '/' ∉ s.toList) {p : String → Bool}
    (hp : p "" = false) : (segments (ofSegments ss)).filter p = ss.filter p := by
  unfold ofSegments
  split
  · have hroot : segments "/" = ["", ""] := by decide
    simp [hroot, hp]
  · cases ss with
    | nil =>
      have hempty : segments (join "/" []) = [""] := by decide
      simp [hempty, hp]
    | cons first rest => rw [segments_join (List.cons_ne_nil first rest) h]

theorem mem_of_mem_segments_ofSegments {ss : List String} (h : ∀ s ∈ ss, '/' ∉ s.toList) {s : String}
    (hs : s ∈ segments (ofSegments ss)) : s = "" ∨ s ∈ ss := by
  by_cases hempty : s = ""
  · exact .inl hempty
  · right
    have hmem : s ∈ (segments (ofSegments ss)).filter fun s => s ≠ "" := List.mem_filter.mpr ⟨hs, by simpa using hempty⟩
    rw [filter_segments_ofSegments h (by simp)] at hmem
    exact List.mem_of_mem_filter hmem

/-- The path made of segments is absolute when the first of them is empty, unless that is all. -/
theorem isAbsolute_ofSegments {first : String} {rest : List String} (h : ∀ s ∈ first :: rest, '/' ∉ s.toList) :
    isAbsolute (ofSegments (first :: rest)) = true ↔ first = "" := by
  unfold ofSegments
  split
  · rename_i heq
    obtain ⟨rfl, rfl⟩ := List.cons.inj heq
    decide
  · rename_i hne
    rw [isAbsolute_iff, segments_join (List.cons_ne_nil first rest) h]
    refine ⟨fun hrest => ?_, fun hfirst => ?_⟩
    · obtain ⟨_, -, heq⟩ := hrest
      exact (List.cons.inj heq).1
    · subst hfirst
      exact ⟨rest, fun hrest => hne (by rw [hrest]), rfl⟩

/-! ## §3 Segments at the end -/

theorem dropVoidEnd_eq (ss : List String) : dropVoidEnd ss = ss.rdropWhile isVoid := rfl

/-- The segments that are dropped mean nothing. -/
theorem filter_dropVoidEnd (ss : List String) :
    (dropVoidEnd ss).filter (fun s => !isVoid s) = ss.filter fun s => !isVoid s := by
  rw [dropVoidEnd_eq]
  induction ss using List.reverseRecOn with
  | nil => rfl
  | append_singleton ss s ih =>
    rw [List.rdropWhile_concat]
    split
    · rename_i hs
      rw [ih, List.filter_append]
      simp [hs]
    · rfl

/-- What is left of segments ends with a name. -/
theorem exists_concat_of_dropVoidEnd {ss : List String} (h : dropVoidEnd ss ≠ []) :
    ∃ front name, dropVoidEnd ss = front ++ [name] ∧ isVoid name = false := by
  rw [dropVoidEnd_eq] at h ⊢
  have hlast := List.rdropWhile_last_not isVoid ss h
  exact ⟨_, _, (List.dropLast_append_getLast h).symm, by simpa using hlast⟩

theorem trimmedSegments_eq {path first : String} {rest : List String} (h : segments path = first :: rest) :
    trimmedSegments path = first :: dropVoidEnd rest := by
  rw [trimmedSegments, h]

/-! ## §4 The directory around -/

/-- Behind a last segment that means something, there is the directory that the other segments lead to. -/
theorem parent?_of_concat {path first name : String} {front : List String}
    (h : trimmedSegments path = first :: (front ++ [name])) :
    parent? path = some (ofSegments (first :: dropVoidEnd front)) := by
  have hne : front ++ [name] ≠ [] := List.concat_ne_nil name front
  rw [parent?, h]
  split
  · cases ‹_›
  · rename_i heq
    exact absurd (List.cons.inj heq).2 hne
  · rename_i heq
    obtain ⟨rfl, rfl⟩ := List.cons.inj heq
    rw [List.dropLast_concat]

/-- Around the root there is nothing, around a single name the directory that the path is seen from, and around any
other path the directory that the segments before its last name lead to. -/
theorem parent?_cases (path : String) :
    ∃ first rest, segments path = first :: rest ∧
      ((dropVoidEnd rest = [] ∧ first = "" ∧ parent? path = none) ∨
        (dropVoidEnd rest = [] ∧ first ≠ "" ∧ parent? path = some "") ∨
        ∃ front name, dropVoidEnd rest = front ++ [name] ∧ isVoid name = false ∧
          parent? path = some (ofSegments (first :: dropVoidEnd front))) := by
  obtain ⟨first, rest, hsegments⟩ := List.exists_cons_of_ne_nil (segments_ne_nil path)
  refine ⟨first, rest, hsegments, ?_⟩
  -- A path with one name only has the empty parent, and the root has none.
  by_cases hend : dropVoidEnd rest = []
  · by_cases hfirst : first = ""
    · exact .inl ⟨hend, hfirst, by simp [parent?, trimmedSegments_eq hsegments, hend, hfirst]⟩
    · exact .inr (.inl ⟨hend, hfirst, by simp [parent?, trimmedSegments_eq hsegments, hend, hfirst]⟩)
  · obtain ⟨front, name, hconcat, hname⟩ := exists_concat_of_dropVoidEnd hend
    have htrimmed : trimmedSegments path = first :: (front ++ [name]) := by rw [trimmedSegments_eq hsegments, hconcat]
    exact .inr (.inr ⟨front, name, hconcat, hname, parent?_of_concat htrimmed⟩)

/-- The segments that lead to the directory are some of those of the path. -/
theorem mem_segments_of_mem_front {path first name : String} {rest front : List String}
    (h : segments path = first :: rest) (hend : dropVoidEnd rest = front ++ [name]) {s : String}
    (hs : s ∈ first :: dropVoidEnd front) : s ∈ segments path := by
  have hfront : front ++ [name] <+: rest := hend ▸ List.rdropWhile_prefix isVoid rest
  rw [h]
  rcases List.mem_cons.mp hs with rfl | hs
  · exact List.mem_cons_self
  · have hmem := (List.rdropWhile_prefix isVoid front).subset hs
    exact List.mem_cons_of_mem _ (hfront.subset (List.mem_append_left _ hmem))

/-- What the path of the directory around shares with a path. -/
structure IsParent (path around : String) : Prop where
  isAbsolute_eq : isAbsolute around = isAbsolute path
  names_eq : names around = (names path).dropLast
  depth_lt : depth around < depth path
  /-- No segment is new, but for empty ones. -/
  segment : ∀ s ∈ segments around, s = "" ∨ s ∈ segments path

theorem names_eq_nil_of_parent? {path : String} (h : parent? path = none) : names path = [] := by
  obtain ⟨first, rest, hsegments, ⟨hend, rfl, -⟩ | ⟨-, -, hsome⟩ | ⟨_, _, -, -, hsome⟩⟩ := parent?_cases path
  · -- Nothing but the root is left of the path.
    rw [names, hsegments, List.filter_cons_of_neg (by simp [isVoid]), ← filter_dropVoidEnd, hend, List.filter_nil]
  · rw [hsome] at h
    cases h
  · rw [hsome] at h
    cases h

/-- The directory around a single name is the one that the path is seen from. -/
theorem isParent_empty {path first : String} {rest : List String} (h : segments path = first :: rest)
    (hfirst : first ≠ "") (hend : dropVoidEnd rest = []) : IsParent path "" where
  isAbsolute_eq := by
    have hrelative : isAbsolute path = false := by
      rw [← Bool.not_eq_true, isAbsolute_iff, h]
      rintro ⟨_, -, heq⟩
      exact hfirst (List.cons.inj heq).1
    rw [hrelative]
    rfl
  names_eq := by
    have hnone : names "" = [] := by decide
    rw [hnone, names, h, List.filter_cons, ← filter_dropVoidEnd rest, hend]
    split <;> rfl
  depth_lt := by
    have hzero : depth "" = 0 := by decide
    rw [hzero, depth, h, List.filter_cons_of_pos (by simpa using hfirst)]
    exact Nat.succ_pos _
  segment := fun s hs => .inl (List.mem_singleton.mp hs)

/-- The directory around a name is the one that the segments before it lead to. -/
theorem isParent_ofSegments {path first name : String} {rest front : List String} (h : segments path = first :: rest)
    (hend : dropVoidEnd rest = front ++ [name]) (hname : isVoid name = false) :
    IsParent path (ofSegments (first :: dropVoidEnd front)) := by
  have hfront : front ++ [name] <+: rest := hend ▸ List.rdropWhile_prefix isVoid rest
  have hsub : first :: dropVoidEnd front <+: first :: front :=
    List.cons_prefix_cons.mpr ⟨rfl, List.rdropWhile_prefix isVoid front⟩
  have hmem : ∀ s ∈ first :: dropVoidEnd front, s ∈ segments path := fun s hs => mem_segments_of_mem_front h hend hs
  have hslash : ∀ s ∈ first :: dropVoidEnd front, '/' ∉ s.toList :=
    fun s hs => slash_not_mem_of_mem_segments (hmem s hs)
  refine ⟨?_, ?_, ?_, ?_⟩
  · -- The first segment is the same.
    rw [Bool.eq_iff_iff, isAbsolute_ofSegments hslash, isAbsolute_iff, h]
    refine ⟨fun hfirst => ⟨rest, ?_, by rw [hfirst]⟩, fun ⟨_, _, heq⟩ => (List.cons.inj heq).1⟩
    rintro rfl
    exact absurd hfront (by simp)
  · -- The last segment of the path is its last name.
    have hnames : names path = (first :: (front ++ [name])).filter fun s => !isVoid s := by
      rw [names, h, ← hend, List.filter_cons, List.filter_cons, filter_dropVoidEnd]
    have hlast : [name].filter (fun s => !isVoid s) = [name] := by simp [hname]
    rw [hnames, names, filter_segments_ofSegments hslash (by simp [isVoid]), ← List.cons_append,
      List.filter_append, hlast, List.dropLast_concat, List.filter_cons, List.filter_cons, filter_dropVoidEnd]
  · -- That segment is not empty, and it is missing in the directory.
    have hne : name ≠ "" := by
      rintro rfl
      simp [isVoid] at hname
    rw [depth, depth, filter_segments_ofSegments hslash (by simp), h]
    have hle := ((List.cons_prefix_cons.mpr ⟨rfl, hfront⟩ :
      first :: (front ++ [name]) <+: first :: rest).sublist.filter fun s => s ≠ "").length_le
    have hlt := (hsub.sublist.filter fun s => s ≠ "").length_le
    have hlast : [name].filter (fun s => s ≠ "") = [name] := by simp [hne]
    rw [← List.cons_append, List.filter_append, hlast, List.length_append, List.length_singleton] at hle
    omega
  · intro s hs
    exact (mem_of_mem_segments_ofSegments hslash hs).imp_right (hmem s)

theorem isParent_of_parent? {path around : String} (h : parent? path = some around) : IsParent path around := by
  obtain ⟨first, rest, hsegments, ⟨-, -, hparent⟩ | ⟨hend, hfirst, hparent⟩ | ⟨front, name, hend, hname, hparent⟩⟩ :=
    parent?_cases path
  · rw [hparent] at h
    cases h
  · obtain rfl : "" = around := Option.some.inj (hparent.symm.trans h)
    exact isParent_empty hsegments hfirst hend
  · obtain rfl := Option.some.inj (hparent.symm.trans h)
    exact isParent_ofSegments hsegments hend hname

/-- The innermost of the directories is the path itself. -/
theorem exists_ancestors_eq_cons (path : String) : ∃ rest, ancestors path = path :: rest := by
  unfold ancestors
  cases (segments path).length with
  | zero => exact ⟨_, rfl⟩
  | succ n => exact ⟨_, rfl⟩

/-- All that is around the directory of a path is the directory of some path. -/
theorem exists_parent?_of_mem_ancestorsWithin {n : Nat} {path directory around : String}
    (h : parent? path = some directory) (haround : around ∈ ancestorsWithin n directory) :
    ∃ inner, parent? inner = some around := by
  -- By induction on the steps upwards: each directory is the parent of the one before.
  induction n generalizing path directory with
  | zero =>
    obtain rfl := List.mem_singleton.mp haround
    exact ⟨path, h⟩
  | succ n ih =>
    rw [ancestorsWithin] at haround
    rcases List.mem_cons.mp haround with rfl | houter
    · exact ⟨path, h⟩
    · cases hparent : parent? directory with
      | none =>
        rw [hparent] at houter
        cases houter
      | some outer =>
        rw [hparent] at houter
        exact ih hparent houter

/-! ## §5 Names in a directory -/

theorem isAbsolute_append {a : String} (ha : a ≠ "") (b : String) : isAbsolute (a ++ b) = isAbsolute a := by
  have hne : a.toList ≠ [] := fun h => ha (String.toList_eq_nil_iff.mp h)
  rw [isAbsolute, isAbsolute, String.toList_append, List.head?_append_of_ne_nil _ hne]

/-- What is seen from a directory by a name has the segments of the directory, without an empty one at their end, and
then the name. -/
theorem exists_segments_joined {name : String} (hname : '/' ∉ name.toList) (directory : String) :
    isAbsolute (joined directory name) = isAbsolute directory ∧
      ∃ front, segments (joined directory name) = front ++ [name] ∧
        front.filter (fun s => !isVoid s) = names directory ∧ ∀ s ∈ front, s ∈ segments directory := by
  have hrelative : isAbsolute name = false := by
    rw [← Bool.not_eq_true, isAbsolute_iff, segments_of_noSlash hname]
    rintro ⟨rest, hne, heq⟩
    exact hne (List.cons.inj heq).2.symm
  unfold joined
  rw [if_neg (by simp [hrelative])]
  by_cases hempty : directory = ""
  · subst hempty
    simp only [beq_self_eq_true, Bool.true_or, ↓reduceIte, String.empty_append]
    exact ⟨hrelative, [], segments_of_noSlash hname, by decide, by simp⟩
  · by_cases hend : directory.toList.getLast? = some '/'
    · -- The slash at the end of the directory is the one in front of the name.
      obtain ⟨chars, hchars⟩ := List.getLast?_eq_some_iff.mp hend
      have hdirectory : directory = String.ofList chars ++ "/" := by
        rw [← String.toList_inj, hchars]
        simp
      have hsegments : segments directory = segments (String.ofList chars) ++ [""] := by
        have hslash := segments_append_slash (String.ofList chars) ""
        rwa [String.append_empty, ← hdirectory] at hslash
      rw [if_pos (by simp [hend])]
      refine ⟨isAbsolute_append hempty name, segments (String.ofList chars), ?_, ?_, ?_⟩
      · rw [hdirectory, segments_append_slash, segments_of_noSlash hname]
      · rw [names, hsegments, List.filter_append, List.filter_cons_of_neg (by simp [isVoid]), List.filter_nil,
          List.append_nil]
      · intro s hs
        rw [hsegments]
        exact List.mem_append_left _ hs
    · rw [if_neg (by simp [hempty, hend])]
      refine ⟨?_, segments directory, ?_, rfl, fun s hs => hs⟩
      · rw [String.append_assoc, isAbsolute_append hempty]
      · rw [segments_append_slash, segments_of_noSlash hname]

/-! ## §6 Ends of paths -/

/-- A path that is made of segments has them, if the last of them means something. -/
theorem trimmedSegments_ofSegments {first : String} {rest : List String} (h : ∀ s ∈ first :: rest, '/' ∉ s.toList)
    (hend : dropVoidEnd rest = rest) : trimmedSegments (ofSegments (first :: rest)) = first :: rest := by
  unfold ofSegments
  split
  · rename_i heq
    rw [heq]
    decide
  · rw [trimmedSegments_eq (segments_join (List.cons_ne_nil first rest) h), hend]

/-- The path of a directory around ends with something that means something, unless it is empty. -/
theorem withoutVoidEnd_of_parent? {path around : String} (h : parent? path = some around) (hne : around ≠ "") :
    withoutVoidEnd around = around := by
  obtain ⟨first, rest, hsegments, ⟨-, -, hparent⟩ | ⟨-, -, hparent⟩ | ⟨front, name, hend, -, hparent⟩⟩ :=
    parent?_cases path
  · rw [hparent] at h
    cases h
  · exact absurd (Option.some.inj (hparent.symm.trans h)).symm hne
  · obtain rfl := Option.some.inj (hparent.symm.trans h)
    have hslash : ∀ s ∈ first :: dropVoidEnd front, '/' ∉ s.toList :=
      fun s hs => slash_not_mem_of_mem_segments (mem_segments_of_mem_front hsegments hend hs)
    rw [withoutVoidEnd, trimmedSegments_ofSegments hslash (List.rdropWhile_idempotent isVoid front)]

/-- What a path ends with is its name, unless that means something else. -/
theorem exists_concat_of_fileName? {path name : String} (h : fileName? path = some name) :
    ∃ front, trimmedSegments path = front ++ [name] ∧ isVoid name = false ∧ name ≠ ".." := by
  unfold fileName? at h
  split at h
  · rename_i last hlast
    obtain ⟨front, hfront⟩ := List.getLast?_eq_some_iff.mp hlast
    split at h
    · cases h
    · rename_i hname
      obtain rfl := Option.some.inj h
      simp only [Bool.or_eq_true, beq_iff_eq, not_or, Bool.not_eq_true] at hname
      exact ⟨front, hfront, hname⟩
  · cases h

theorem mem_segments_of_mem_trimmedSegments {path s : String} (h : s ∈ trimmedSegments path) : s ∈ segments path := by
  obtain ⟨first, rest, hsegments⟩ := List.exists_cons_of_ne_nil (segments_ne_nil path)
  rw [trimmedSegments_eq hsegments] at h
  rw [hsegments]
  exact (List.cons_prefix_cons.mpr ⟨rfl, List.rdropWhile_prefix isVoid rest⟩ : _ <+: first :: rest).subset h

/-- A name with an extension is too long to mean something else. -/
theorem name_with_extension {name extension : String} (hname : name ≠ "") (hextension : extension ≠ "") :
    isVoid (name ++ "." ++ extension) = false ∧ name ++ "." ++ extension ≠ ".." := by
  have hlong : ∀ word : String, word.toList.length ≤ 2 → name ++ "." ++ extension ≠ word := by
    intro word hword heq
    have hlength := congrArg (fun s => s.toList.length) heq
    have hfirst : 0 < name.toList.length := List.length_pos_iff.mpr (by simpa using hname)
    have hlast : 0 < extension.toList.length := List.length_pos_iff.mpr (by simpa using hextension)
    simp only [String.toList_append, List.length_append] at hlength
    have hdot : ".".toList.length = 1 := rfl
    omega
  refine ⟨?_, hlong ".." (by decide)⟩
  rw [isVoid, Bool.or_eq_false_iff, beq_eq_false_iff_ne, beq_eq_false_iff_ne]
  exact ⟨hlong "" (by decide), hlong "." (by decide)⟩

section

variable {path name extension : String} (h : fileName? path = some name) (hslash : '/' ∉ extension.toList)
  (hextension : extension ≠ "")

include h hslash hextension

/-- An extension is added to the name that a path ends with. -/
theorem exists_trimmedSegments_addExtension :
    ∃ front, trimmedSegments path = front ++ [name] ∧ name ≠ "" ∧
      trimmedSegments (addExtension path extension) = front ++ [name ++ "." ++ extension] := by
  obtain ⟨front, hfront, hvoid, -⟩ := exists_concat_of_fileName? h
  have hname : name ≠ "" := by
    rintro rfl
    exact absurd hvoid (by decide)
  have hpart : ∀ s ∈ front ++ [name], '/' ∉ s.toList := fun s hs =>
    slash_not_mem_of_mem_segments (mem_segments_of_mem_trimmedSegments (hfront ▸ hs))
  have hnew : '/' ∉ (name ++ "." ++ extension).toList := by
    have hlast := hpart name (by simp)
    simp [hlast, hslash]
  have hall : ∀ s ∈ front ++ [name ++ "." ++ extension], '/' ∉ s.toList := by
    intro s hs
    rcases List.mem_append.mp hs with hs | hs
    · exact hpart s (List.mem_append_left _ hs)
    · rwa [List.mem_singleton.mp hs]
  refine ⟨front, hfront, hname, ?_⟩
  rw [addExtension, h]
  dsimp only
  rw [hfront, List.dropLast_concat]
  -- An only segment is not empty, and behind others there is no empty one to drop.
  cases front with
  | nil => exact trimmedSegments_ofSegments hall rfl
  | cons first front =>
    refine trimmedSegments_ofSegments hall (List.rdropWhile_concat_neg _ _ _ ?_)
    simp [(name_with_extension hname hextension).1]

theorem fileName?_addExtension : fileName? (addExtension path extension) = some (name ++ "." ++ extension) := by
  obtain ⟨front, -, hname, hnew⟩ := exists_trimmedSegments_addExtension h hslash hextension
  have hlong := name_with_extension hname hextension
  simp [fileName?, hnew, hlong]

/-- A path with an extension added is one of the same directory. -/
theorem parent?_addExtension : parent? (addExtension path extension) = parent? path := by
  obtain ⟨front, hfront, hname, hnew⟩ := exists_trimmedSegments_addExtension h hslash hextension
  cases front with
  | nil => simp [parent?, hfront, hnew, hname]
  | cons first front => rw [parent?_of_concat hfront, parent?_of_concat hnew]

end

/-! ## §7 Places -/

/-- Two paths that lead to the same place: their names are the same, from the root or from where one is. -/
structure Same (p q : String) : Prop where
  isAbsolute_eq : isAbsolute p = isAbsolute q
  names_eq : names p = names q

/-- A path that is written with nothing but its names: it has no segment that means nothing. -/
def Plain (path : String) : Prop := segments path = if isAbsolute path then "" :: names path else names path

instance (path : String) : Decidable (Plain path) := inferInstanceAs (Decidable (_ = _))

theorem segments_inj {p q : String} : segments p = segments q ↔ p = q := by
  refine ⟨fun h => ?_, fun h => h ▸ rfl⟩
  have hparts : splitOn '/' p.toList = splitOn '/' q.toList := by
    have hchars := congrArg (List.map String.toList) h
    simpa [segments, Function.comp_def] using hchars
  have hjoined : ∀ s : List Char, ['/'].intercalate (splitOn '/' s) = s := fun s => by
    rw [splitOn_eq, List.intercalate_splitOn]
  rw [← String.toList_inj, ← hjoined p.toList, hparts, hjoined]

/-- A place has one plain path. -/
theorem Same.eq_of_plain {p q : String} (h : Same p q) (hp : Plain p) (hq : Plain q) : p = q := by
  rw [← segments_inj, hp, hq, h.isAbsolute_eq, h.names_eq]

theorem joined_of_isAbsolute {path : String} (h : isAbsolute path = true) (directory : String) :
    joined directory path = path := if_pos h

theorem names_append_slash (a b : String) : names (a ++ "/" ++ b) = names a ++ names b := by
  rw [names, segments_append_slash, List.filter_append, names, names]

theorem names_joined {path : String} (h : isAbsolute path = false) (directory : String) :
    names (joined directory path) = names directory ++ names path := by
  rw [joined, if_neg (by simp [h])]
  split
  · rename_i hend
    rw [Bool.or_eq_true, beq_iff_eq, beq_iff_eq] at hend
    rcases hend with rfl | hend
    · have hnone : names "" = [] := by decide
      rw [String.empty_append, hnone, List.nil_append]
    · obtain ⟨chars, hchars⟩ := List.getLast?_eq_some_iff.mp hend
      -- The slash at the end of the directory is the one in front of the path.
      have hdirectory : directory = String.ofList chars ++ "/" ++ "" := by
        rw [← String.toList_inj, hchars]
        simp
      have hnone : names "" = [] := by decide
      rw [hdirectory, names_append_slash, hnone, List.append_nil, String.append_empty, names_append_slash]
  · exact names_append_slash directory path

/-- Different paths stay different, seen from a directory. -/
theorem joined_inj {directory p q : String} (habsolute : isAbsolute p = isAbsolute q)
    (h : joined directory p = joined directory q) : p = q := by
  unfold joined at h
  rw [habsolute] at h
  split at h
  · exact h
  · split at h
    · exact (String.append_right_inj directory).mp h
    · exact (String.append_right_inj (directory ++ "/")).mp h

/-- Paths that are seen from a directory lead to one place when they have the same names. -/
theorem same_of_same_joined {directory p q : String} (habsolute : isAbsolute p = isAbsolute q)
    (h : Same (joined directory p) (joined directory q)) : Same p q := by
  refine ⟨habsolute, ?_⟩
  have hnames := h.names_eq
  cases hp : isAbsolute p with
  | true => rwa [joined_of_isAbsolute hp, joined_of_isAbsolute (habsolute ▸ hp)] at hnames
  | false =>
    rw [names_joined hp, names_joined (habsolute ▸ hp)] at hnames
    exact List.append_cancel_left hnames

end Phrasebook.Path
