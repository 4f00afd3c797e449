import Phrasebook.Files.Disk
import Phrasebook.Proofs.Path
import Mathlib.Data.List.Infix

/-!
# Places on a disk

A path without `..` leads to the place that its names say, as long as all before the last one are directories. What
stands at the places decides which paths lead somewhere; so a change that keeps the directories keeps the paths.

## Layers

- `Open`: a place that one can go on from.
- `follow_concat_eq_some_iff`, `place?_joined_eq_some_iff`: where a name in a directory leads.
- `Holds`: what a directory has in it, and `isSome_nodeAt?_joined_iff`, that it is found there.
-/

namespace Phrasebook.Disk

/-! ## §1 Places -/

/-- A name that a file or a directory may have. -/
structure IsName (name : String) : Prop where
  noSlash : '/' ∉ name.toList
  /-- It leads somewhere. -/
  notVoid : Path.isVoid name = false
  notUp : name ≠ ".."

/-- From a place on, names lead through directories and to one. -/
def OpenFrom (d : Disk) (place names : List String) : Prop :=
  ∀ around, around <+: names → d.node? (place ++ around) = some .directory

/-- All the way to a place, and there too, are directories. -/
def Open (d : Disk) (place : List String) : Prop := d.OpenFrom [] place

/-- The current directory exists. -/
structure Rooted (d : Disk) : Prop where
  named : ∀ name ∈ d.current, IsName name
  isOpen : d.Open d.current

/-- A directory with something of a name in it. -/
def Holds (d : Disk) (place : List String) (name : String) : Prop := d.Open place ∧ (d.node? (place ++ [name])).isSome

instance (name : String) : Decidable (IsName name) :=
  decidable_of_iff ('/' ∉ name.toList ∧ Path.isVoid name = false ∧ name ≠ "..")
    ⟨fun h => ⟨h.1, h.2.1, h.2.2⟩, fun h => ⟨h.noSlash, h.notVoid, h.notUp⟩⟩

instance (d : Disk) (place names : List String) : Decidable (d.OpenFrom place names) :=
  decidable_of_iff (∀ around ∈ names.inits, d.node? (place ++ around) = some .directory)
    (forall_congr' fun around => by rw [List.mem_inits])

instance (d : Disk) (place : List String) : Decidable (d.Open place) := inferInstanceAs (Decidable (d.OpenFrom [] place))

instance (d : Disk) : Decidable d.Rooted :=
  decidable_of_iff ((∀ name ∈ d.current, IsName name) ∧ d.Open d.current)
    ⟨fun h => ⟨h.1, h.2⟩, fun h => ⟨h.named, h.isOpen⟩⟩

instance (d : Disk) (place : List String) (name : String) : Decidable (d.Holds place name) :=
  inferInstanceAs (Decidable (_ ∧ _))

/-- The place that a path is seen from. -/
def top (d : Disk) (path : String) : List String := if Path.isAbsolute path then [] else d.current

/-- The place that the names in a path say. -/
def placeOf (d : Disk) (path : String) : List String := d.top path ++ Path.names path

theorem node?_nil (d : Disk) : d.node? [] = some .directory := rfl

theorem openFrom_nil_iff {d : Disk} {place : List String} :
    d.OpenFrom place [] ↔ d.node? place = some .directory := by
  simp [OpenFrom]

theorem openFrom_cons_iff {d : Disk} {place : List String} {name : String} {names : List String} :
    d.OpenFrom place (name :: names) ↔
      d.node? place = some .directory ∧ d.OpenFrom (place ++ [name]) names := by
  unfold OpenFrom
  refine ⟨fun h => ⟨?_, fun around haround => ?_⟩, fun h around haround => ?_⟩
  · simpa using h [] List.nil_prefix
  · simpa using h (name :: around) (List.cons_prefix_cons.mpr ⟨rfl, haround⟩)
  · rcases List.prefix_cons_iff.mp haround with rfl | ⟨rest, rfl, hrest⟩
    · simpa using h.1
    · simpa using h.2 rest hrest

theorem open_nil (d : Disk) : d.Open [] := openFrom_nil_iff.mpr d.node?_nil

theorem Rooted.open_top {d : Disk} (hd : d.Rooted) (path : String) : d.Open (d.top path) := by
  unfold top
  split
  · exact d.open_nil
  · exact hd.isOpen

/-- From an open place, the names that follow need to be those of directories. -/
theorem open_append_iff {d : Disk} {place : List String} (h : d.Open place) (names : List String) :
    d.Open (place ++ names) ↔ d.OpenFrom place names := by
  refine ⟨fun hopen around haround => hopen _ ((List.prefix_append_right_inj place).mpr haround), ?_⟩
  intro hnames around haround
  rcases List.prefix_or_prefix_of_prefix haround (List.prefix_append place names) with hbefore | hbehind
  · exact h around hbefore
  · obtain ⟨rest, rfl⟩ := hbehind
    exact hnames rest ((List.prefix_append_right_inj place).mp haround)

/-! ## §2 Following names -/

/-- A last name leads on from the directory that the names before it lead to. -/
theorem follow_concat_eq_some_iff {d : Disk} {name : String} (hname : IsName name) {segments : List String}
    (hup : ".." ∉ segments) {base place : List String} :
    d.follow base (segments ++ [name]) = some place ↔
      d.OpenFrom base (segments.filter fun s => !Path.isVoid s) ∧
        place = base ++ segments.filter (fun s => !Path.isVoid s) ++ [name] := by
  induction segments generalizing base with
  | nil =>
    rw [List.nil_append, List.filter_nil, follow, openFrom_nil_iff, List.append_nil]
    by_cases hbase : d.node? base = some .directory
    · simp [hbase, hname.notVoid, hname.notUp, follow, eq_comm]
    · simp [hbase]
  | cons s segments ih =>
    have hs : s ≠ ".." := fun h => hup (h ▸ List.mem_cons_self)
    have hup : ".." ∉ segments := fun h => hup (List.mem_cons_of_mem s h)
    rw [List.cons_append, follow]
    by_cases hvoid : Path.isVoid s = true
    · rw [List.filter_cons_of_neg (by simp [hvoid])]
      by_cases hbase : d.node? base = some .directory
      · rw [if_neg (by simpa using hbase), if_pos hvoid, ih hup]
      · -- The names behind start from the same place, which is no directory.
        rw [if_pos hbase]
        simp only [reduceCtorEq, false_iff, not_and]
        intro hopen
        exact absurd (by simpa using hopen [] List.nil_prefix) hbase
    · rw [List.filter_cons_of_pos (by simpa using hvoid), openFrom_cons_iff, List.append_cons base s]
      by_cases hbase : d.node? base = some .directory
      · rw [if_neg (by simpa using hbase), if_neg hvoid, if_neg hs, ih hup]
        simp [hbase]
      · simp [hbase]

/-- A path that is not empty is followed from the place that it is seen from. -/
theorem place?_eq_follow (d : Disk) {path : String} (h : path ≠ "") :
    d.place? path = d.follow (d.top path) (Path.segments path) := by
  rw [place?, if_neg (by simpa using h), top]
  split <;> rfl

/-! ## §3 Names in directories -/

section

variable {d : Disk} (hd : d.Rooted) {name : String} (hname : IsName name) {directory : String}
  (hup : ".." ∉ Path.segments directory)

include hd hname hup

/-- A name seen from a directory leads into the directory, if there is one. -/
theorem place?_joined_eq_some_iff {place : List String} :
    d.place? (Path.joined directory name) = some place ↔
      d.Open (d.placeOf directory) ∧ place = d.placeOf directory ++ [name] := by
  obtain ⟨habsolute, front, hsegments, hnames, hfront⟩ := Path.exists_segments_joined hname.noSlash directory
  have hne : Path.joined directory name ≠ "" := by
    intro hempty
    have hone : Path.segments "" = [] ++ [""] := by decide
    rw [hempty, hone] at hsegments
    obtain ⟨-, hlast⟩ := List.append_inj' hsegments rfl
    obtain rfl : "" = name := by simpa using hlast
    exact absurd hname.notVoid (by decide)
  have htop : d.top (Path.joined directory name) = d.top directory := by rw [top, top, habsolute]
  rw [d.place?_eq_follow hne, htop, hsegments, follow_concat_eq_some_iff hname fun h => hup (hfront _ h), hnames,
    placeOf, open_append_iff (hd.open_top directory)]

/-- Something is found at a name in a directory exactly when the directory holds it. -/
theorem isSome_nodeAt?_joined_iff :
    (d.nodeAt? (Path.joined directory name)).isSome ↔ d.Holds (d.placeOf directory) name := by
  simp only [nodeAt?, Option.isSome_iff_exists, Option.bind_eq_some_iff, place?_joined_eq_some_iff hd hname hup, Holds]
  refine ⟨fun h => ?_, fun h => ?_⟩
  · obtain ⟨node, _, ⟨hopen, rfl⟩, hnode⟩ := h
    exact ⟨hopen, node, hnode⟩
  · obtain ⟨hopen, node, hnode⟩ := h
    exact ⟨node, _, ⟨hopen, rfl⟩, hnode⟩

end

/-! ## §4 Paths of places -/

theorem pathOf_eq (place : List String) : pathOf place = "" ++ "/" ++ Text.join "/" place := by
  rw [pathOf, String.empty_append]

theorem isAbsolute_pathOf (place : List String) : Path.isAbsolute (pathOf place) = true := by
  rw [pathOf, Path.isAbsolute_append (by decide)]
  decide

/-- The path of a place has an empty segment and then the names of the place. -/
theorem segments_pathOf {place : List String} (h : ∀ name ∈ place, IsName name) :
    Path.segments (pathOf place) = "" :: if place = [] then [""] else place := by
  have hempty : Path.segments "" = [""] := by decide
  rw [pathOf_eq, Path.segments_append_slash, hempty, List.singleton_append]
  split
  · rename_i hplace
    rw [hplace]
    decide
  · rename_i hplace
    rw [Path.segments_join hplace fun name hname => (h name hname).noSlash]

theorem names_pathOf {place : List String} (h : ∀ name ∈ place, IsName name) : Path.names (pathOf place) = place := by
  rw [Path.names, segments_pathOf h, List.filter_cons_of_neg (by decide)]
  split
  · rename_i hplace
    rw [hplace]
    decide
  · exact List.filter_eq_self.mpr fun name hname => by simp [(h name hname).notVoid]

theorem up_not_mem_segments_pathOf {place : List String} (h : ∀ name ∈ place, IsName name) :
    ".." ∉ Path.segments (pathOf place) := by
  rw [segments_pathOf h]
  intro hmem
  rcases List.mem_cons.mp hmem with hempty | hmem
  · exact absurd hempty (by decide)
  · split at hmem
    · exact absurd (List.mem_singleton.mp hmem) (by decide)
    · exact (h _ hmem).notUp rfl

theorem placeOf_of_isAbsolute {d : Disk} {path : String} (h : Path.isAbsolute path = true) :
    d.placeOf path = Path.names path := by
  rw [placeOf, top, if_pos h, List.nil_append]

theorem isName_of_mem_names {path name : String} (hup : ".." ∉ Path.segments path) (h : name ∈ Path.names path) :
    IsName name := by
  obtain ⟨hmem, hvoid⟩ := List.mem_filter.mp h
  exact ⟨Path.slash_not_mem_of_mem_segments hmem, by simpa using hvoid, fun heq => hup (heq ▸ hmem)⟩

theorem Rooted.isName_placeOf {d : Disk} (hd : d.Rooted) {path : String} (hup : ".." ∉ Path.segments path) :
    ∀ name ∈ d.placeOf path, IsName name := by
  intro name hname
  rcases List.mem_append.mp hname with htop | hname
  · unfold top at htop
    split at htop
    · cases htop
    · exact hd.named name htop
  · exact isName_of_mem_names hup hname

/-! ## §5 Operations -/

theorem bind_run {α β : Type} (x : StateM Disk α) (f : α → StateM Disk β) (d : Disk) :
    (x >>= f) d = f (x d).1 (x d).2 := rfl

theorem pure_run {α : Type} (a : α) (d : Disk) : (pure a : StateM Disk α) d = (a, d) := rfl

theorem ite_run {α : Type} (p : Prop) [Decidable p] (x y : StateM Disk α) (d : Disk) :
    (if p then x else y) d = if p then x d else y d := by
  split <;> rfl

/-- What only looks at a disk, whatever it finds there. -/
def ReadOnly {α : Type} (x : StateM Disk α) : Prop := ∀ d, (x d).2 = d

theorem ReadOnly.pure {α : Type} (a : α) : ReadOnly (pure a : StateM Disk α) := fun _ => rfl

/-- What only looks at a disk is known by its result. -/
theorem ReadOnly.run_eq {α : Type} {x : StateM Disk α} (hx : ReadOnly x) {d : Disk} {a : α} (h : (x d).1 = a) :
    x d = (a, d) := Prod.ext h (hx d)

/-- What is done in two parts only looks at a disk when both parts do. -/
theorem ReadOnly.bind {α β : Type} {x : StateM Disk α} {f : α → StateM Disk β} (hx : ReadOnly x)
    (hf : ∀ a, ReadOnly (f a)) : ReadOnly (x >>= f) := by
  intro d
  rw [bind_run, hf, hx]

theorem ReadOnly.ite {α : Type} {p : Prop} [Decidable p] {x y : StateM Disk α} (hx : ReadOnly x) (hy : ReadOnly y) :
    ReadOnly (if p then x else y) := by
  split
  · exact hx
  · exact hy

theorem readOnly_currentDirectory : ReadOnly access.currentDirectory := fun _ => rfl

theorem readOnly_kind? (path : String) : ReadOnly (access.kind? path) := fun _ => rfl

theorem readOnly_readText? (path : String) : ReadOnly (access.readText? path) := fun _ => rfl

theorem readOnly_exists? (path : String) : ReadOnly (access.exists? path) := (readOnly_kind? path).bind fun _ => .pure _

theorem exists?_access (path : String) (d : Disk) : access.exists? path d = ((d.nodeAt? path).isSome, d) := by
  show (((d.nodeAt? path).map kindOf).isSome, d) = _
  rw [Option.isSome_map]

end Phrasebook.Disk
