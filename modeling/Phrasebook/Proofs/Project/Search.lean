import Phrasebook.Project.Basic
import Phrasebook.Proofs.Files.Disk

/-!
# Which configuration is found

From a directory, the search goes outwards to the first configuration file, but not past a version repository. How far
out it can go depends on the path it starts with: an absolute one is shortened up to the root, a relative one only up
to the directory that it is seen from.

## Layers

- `Configures`: the directory whose configuration a directory has, as a fact about places.
- `Nearest`: what a search has found, as far out as it goes.
- `nearest_cons`, `nearest_ancestorsWithin`: one directory of a search, and all of them.
- `nearest_findConfig`: the search from any path without `..`.
-/

namespace Phrasebook

open Disk

/-! ## §1 The configuration of a directory -/

/-- A directory is configured by the nearest configuration file around it, up to a version repository. -/
structure Configures (d : Disk) (start place : List String) : Prop where
  around : place <+: start
  configured : d.Holds place configFileName
  nearest : ∀ inner, place <+: inner → inner <+: start → inner ≠ place →
    ¬d.Holds inner configFileName ∧ ¬d.Holds inner repositoryName

/-- A search in the directories around a place, none of which is outside `top`, has found the configuration of the
place, or none where that is outside. -/
structure Nearest (d : Disk) (top start : List String) (found : Option String) : Prop where
  some_iff : ∀ place, (∃ path, found = some path ∧ d.place? path = some (place ++ [configFileName])) ↔
    top <+: place ∧ Configures d start place
  none_iff : found = none ↔ ∀ place, top <+: place → ¬Configures d start place

theorem configures_iff {d : Disk} {start place : List String} :
    Configures d start place ↔ place <+: start ∧ d.Holds place configFileName ∧
      ∀ inner ∈ start.inits, place <+: inner → inner ≠ place →
        ¬d.Holds inner configFileName ∧ ¬d.Holds inner repositoryName := by
  simp only [List.mem_inits]
  refine ⟨fun h => ⟨h.around, h.configured, fun inner hinner houter => h.nearest inner houter hinner⟩, fun h => ?_⟩
  exact ⟨h.1, h.2.1, fun inner houter hinner => h.2.2 inner hinner houter⟩

instance (d : Disk) (start place : List String) : Decidable (Configures d start place) :=
  decidable_of_iff _ configures_iff.symm

theorem isName_configFileName : IsName configFileName := by decide

theorem isName_repositoryName : IsName repositoryName := by decide

/-- No two directories configure the same one. -/
theorem Configures.unique {d : Disk} {start place other : List String} (h : Configures d start place)
    (h' : Configures d start other) : place = other := by
  by_contra hne
  -- One is inside of the other, and then the outer one is not the nearest.
  rcases List.prefix_or_prefix_of_prefix h.around h'.around with hinside | hinside
  · exact (h.nearest other hinside h'.around (Ne.symm hne)).1 h'.configured
  · exact (h'.nearest place hinside h.around hne).1 h.configured

theorem Nearest.of_some {d : Disk} {top start place : List String} {path : String}
    (hpath : d.place? path = some (place ++ [configFileName])) (htop : top <+: place) (h : Configures d start place) :
    Nearest d top start (some path) where
  some_iff := by
    intro other
    refine ⟨fun hfound => ?_, fun hother => ?_⟩
    · obtain ⟨_, hsome, hother⟩ := hfound
      obtain rfl := Option.some.inj hsome
      obtain rfl : place = other := List.append_cancel_right (Option.some.inj (hpath.symm.trans hother))
      exact ⟨htop, h⟩
    · obtain rfl := h.unique hother.2
      exact ⟨path, rfl, hpath⟩
  none_iff := by
    simp only [reduceCtorEq, false_iff, not_forall, not_not]
    exact ⟨place, htop, h⟩

theorem Nearest.of_none {d : Disk} {top start : List String} (h : ∀ place, top <+: place → ¬Configures d start place) :
    Nearest d top start none where
  some_iff := by
    intro place
    simp only [reduceCtorEq, false_and, exists_false, false_iff, not_and]
    exact h place
  none_iff := iff_of_true rfl h

theorem Nearest.congr {d : Disk} {top start start' : List String} {found : Option String}
    (h : Nearest d top start found)
    (hiff : ∀ place, top <+: place → (Configures d start place ↔ Configures d start' place)) :
    Nearest d top start' found where
  some_iff := fun place => (h.some_iff place).trans (and_congr_right (hiff place))
  none_iff := h.none_iff.trans (forall₂_congr fun place htop => not_congr (hiff place htop))

/-! ## §2 One directory -/

/-- A directory without configuration and repository has the configuration of the directory around it. -/
theorem configures_dropLast_iff {d : Disk} {start place : List String} (hconfig : ¬d.Holds start configFileName)
    (hrepository : ¬d.Holds start repositoryName) (hne : start ≠ []) :
    Configures d start.dropLast place ↔ Configures d start place := by
  -- Only the directory itself is lost on the way upwards, and it is neither configured nor a repository.
  have hbefore : ∀ inner, inner <+: start ↔ inner = start ∨ inner <+: start.dropLast := by
    intro inner
    rw [← List.dropLast_append_getLast hne, List.prefix_concat_iff, List.dropLast_concat]
  refine ⟨fun h => ⟨?_, h.configured, ?_⟩, fun h => ⟨?_, h.configured, ?_⟩⟩
  · exact (hbefore place).mpr (.inr h.around)
  · intro inner hplace hinner hother
    rcases (hbefore inner).mp hinner with rfl | hinner
    · exact ⟨hconfig, hrepository⟩
    · exact h.nearest inner hplace hinner hother
  · refine ((hbefore place).mp h.around).resolve_left ?_
    rintro rfl
    exact hconfig h.configured
  · exact fun inner hplace hinner hother => h.nearest inner hplace ((hbefore inner).mpr (.inr hinner)) hother

theorem findConfigIn_cons (d : Disk) (directory : String) (directories : List String) :
    findConfigIn Disk.access (directory :: directories) d =
      if (d.nodeAt? (Path.joined directory configFileName)).isSome then
        (some (Path.joined directory configFileName), d)
      else if (d.nodeAt? (Path.joined directory repositoryName)).isSome then (none, d)
      else findConfigIn Disk.access directories d := by
  simp only [findConfigIn, bind_run, ite_run, pure_run, exists?_access]

/-- Whether a search ends at a directory: it has a configuration or a repository. -/
def endsAt (d : Disk) (directory : String) : Bool :=
  (d.nodeAt? (Path.joined directory configFileName)).isSome
    || (d.nodeAt? (Path.joined directory repositoryName)).isSome

/-- The configuration file of a directory, if there is one. -/
def configPathIn? (d : Disk) (directory : String) : Option String :=
  if (d.nodeAt? (Path.joined directory configFileName)).isSome then some (Path.joined directory configFileName)
  else none

/-- The first directory where a search ends has the configuration that is found, if any. -/
theorem findConfigIn_eq (d : Disk) (directories : List String) :
    findConfigIn Disk.access directories d = ((directories.find? (endsAt d)).bind (configPathIn? d), d) := by
  induction directories with
  | nil => rfl
  | cons directory directories ih =>
    rw [findConfigIn_cons, List.find?_cons, endsAt]
    by_cases hconfig : (d.nodeAt? (Path.joined directory configFileName)).isSome
    · simp [hconfig, configPathIn?]
    · by_cases hrepository : (d.nodeAt? (Path.joined directory repositoryName)).isSome
      · simp [hconfig, hrepository, configPathIn?]
      · simp [hconfig, hrepository, ih]

/-- A search only looks at a disk. -/
theorem readOnly_findConfig (start : String) : ReadOnly (findConfig Disk.access start) := by
  intro d
  rw [findConfig, findConfigIn_eq]

/-! ## §3 All directories -/

section

variable {d : Disk} (hd : d.Rooted)

include hd

/-- A search that looks into one more directory finds what is configured, if it does so without that directory when
that has neither a configuration nor a repository. -/
theorem nearest_cons {path : String} (hup : ".." ∉ Path.segments path) {directories : List String}
    (hnearest : ¬d.Holds (d.placeOf path) configFileName → ¬d.Holds (d.placeOf path) repositoryName →
      Nearest d (d.top path) (d.placeOf path) (findConfigIn Disk.access directories d).1) :
    Nearest d (d.top path) (d.placeOf path) (findConfigIn Disk.access (path :: directories) d).1 := by
  have htop : d.top path <+: d.placeOf path := List.prefix_append _ _
  have hconfig := isSome_nodeAt?_joined_iff hd isName_configFileName hup
  have hrepository := isSome_nodeAt?_joined_iff hd isName_repositoryName hup
  rw [findConfigIn_cons]
  by_cases hfound : (d.nodeAt? (Path.joined path configFileName)).isSome
  · rw [if_pos hfound]
    rw [hconfig] at hfound
    refine .of_some ?_ htop ⟨List.prefix_rfl, hfound, ?_⟩
    · exact (place?_joined_eq_some_iff hd isName_configFileName hup).mpr ⟨hfound.1, rfl⟩
    -- No directory lies between a directory and itself.
    · exact fun inner houter hinner hne => absurd (hinner.eq_of_length_le houter.length_le) hne
  · rw [if_neg hfound]
    rw [hconfig] at hfound
    by_cases hend : (d.nodeAt? (Path.joined path repositoryName)).isSome
    · rw [if_pos hend]
      rw [hrepository] at hend
      -- A repository ends the search here, and every other configured directory lies behind it.
      refine .of_none fun place _ h => ?_
      by_cases hplace : place = d.placeOf path
      · exact hfound (hplace ▸ h.configured)
      · exact (h.nearest _ h.around List.prefix_rfl (Ne.symm hplace)).2 hend
    · rw [if_neg hend]
      rw [hrepository] at hend
      exact hnearest hfound hend

/-- The last directory of a search is the one that the path is seen from. -/
theorem nearest_singleton {path : String} (hup : ".." ∉ Path.segments path) (hparent : Path.parent? path = none) :
    Nearest d (d.top path) (d.placeOf path) (findConfigIn Disk.access [path] d).1 := by
  refine nearest_cons hd hup fun hconfig _ => .of_none fun place htop h => ?_
  have hplace : d.placeOf path = d.top path := by
    rw [placeOf, Path.names_eq_nil_of_parent? hparent, List.append_nil]
  have heq := h.around.eq_of_length_le (hplace ▸ htop.length_le)
  exact hconfig (heq ▸ h.configured)

/-- A search through a path and all that are around it. -/
theorem nearest_ancestorsWithin {n : Nat} {path : String} (hup : ".." ∉ Path.segments path)
    (hdepth : Path.depth path ≤ n) :
    Nearest d (d.top path) (d.placeOf path) (findConfigIn Disk.access (Path.ancestorsWithin n path) d).1 := by
  -- Each path around has less depth, so the fuel lasts until there is none.
  induction n generalizing path with
  | zero =>
    rw [Path.ancestorsWithin]
    refine nearest_singleton hd hup (Option.eq_none_iff_forall_ne_some.mpr fun around haround => ?_)
    have hlt := (Path.isParent_of_parent? haround).depth_lt
    omega
  | succ n ih =>
    rw [Path.ancestorsWithin]
    cases hparent : Path.parent? path with
    | none => exact nearest_singleton hd hup hparent
    | some around =>
      have hshared := Path.isParent_of_parent? hparent
      have haround : ".." ∉ Path.segments around := by
        intro hmem
        rcases hshared.segment _ hmem with hempty | hmem
        · exact absurd hempty (by decide)
        · exact hup hmem
      have hlt := hshared.depth_lt
      have hnearest := ih haround (by omega)
      have htop : d.top around = d.top path := by rw [top, top, hshared.isAbsolute_eq]
      refine nearest_cons hd hup fun hconfig hrepository => ?_
      rw [placeOf, htop, hshared.names_eq] at hnearest
      by_cases hnames : Path.names path = []
      · -- A path without names, such as a dot, is the same place as what is around it.
        rwa [hnames, List.dropLast_nil, ← hnames] at hnearest
      · rw [← List.dropLast_append_of_ne_nil hnames] at hnearest
        refine hnearest.congr fun place _ => ?_
        exact configures_dropLast_iff hconfig hrepository (List.append_ne_nil_of_right_ne_nil _ hnames)

/-- A search finds the configuration of a directory, unless that is outside of where the path is seen from. -/
theorem nearest_findConfig {start : String} (hup : ".." ∉ Path.segments start) :
    Nearest d (d.top start) (d.placeOf start) (findConfig Disk.access start d).1 :=
  nearest_ancestorsWithin hd hup (Path.depth_le_length start)

end

/-! ## §4 Loading -/

namespace Project

/-- The configuration that is loaded from a directory on, unless it cannot be read. -/
def configFrom? (d : Disk) (start : String) : Option Config :=
  ((loadConfig Disk.access start d).1.map Prod.fst).toOption

/-- The configuration in a directory, unless it cannot be read. -/
def configIn? (d : Disk) (place : List String) : Option Config :=
  (decodeConfig "" ((d.node? (place ++ [configFileName])).bind Disk.textOf?)).toOption

/-- Where a configuration is read only matters for its errors. -/
theorem toOption_decodeConfig (path other : String) (text : Option String) :
    (decodeConfig path text).toOption = (decodeConfig other text).toOption := by
  cases text with
  | none => rfl
  | some text =>
    cases hread : Config.read? text with
    | none => simp only [decodeConfig, hread, Except.toOption]
    | some c => cases hvalid : c.validate <;> simp only [decodeConfig, hread, hvalid, Except.toOption]

theorem loadConfig_of_some {d d' : Disk} {start path : String} (h : findConfig Disk.access start d = (some path, d')) :
    loadConfig Disk.access start d =
      ((decodeConfig path ((d'.nodeAt? path).bind Disk.textOf?)).map fun c => (c, (Path.parent? path).getD start),
        d') := by
  rw [loadConfig, bind_run, h]
  rfl

theorem loadConfig_of_none {d d' : Disk} {start : String} (h : findConfig Disk.access start d = (none, d')) :
    loadConfig Disk.access start d = (.ok (.default, start), d') := by
  rw [loadConfig, bind_run, h]
  rfl

section

variable {d : Disk} (hd : d.Rooted) {start : String} (hup : ".." ∉ Path.segments start)

include hd hup

/-- The configuration of a directory is loaded, if it is not outside of where the path is seen from. -/
theorem configFrom?_eq_configIn? {place : List String} (htop : d.top start <+: place)
    (h : Configures d (d.placeOf start) place) : configFrom? d start = configIn? d place := by
  obtain ⟨path, hfound, hpath⟩ := ((nearest_findConfig hd hup).some_iff place).mpr ⟨htop, h⟩
  have hread : d.nodeAt? path = d.node? (place ++ [configFileName]) := by rw [nodeAt?, hpath, Option.bind_some]
  rw [configFrom?, loadConfig_of_some ((readOnly_findConfig start).run_eq hfound), configIn?, hread,
    toOption_decodeConfig "" path]
  cases decodeConfig path ((d.node? (place ++ [configFileName])).bind Disk.textOf?) <;> rfl

/-- Without a configuration as far out as a search goes, the default one is loaded. -/
theorem configFrom?_eq_default (h : ∀ place, d.top start <+: place → ¬Configures d (d.placeOf start) place) :
    configFrom? d start = some .default := by
  have hnone := (nearest_findConfig hd hup).none_iff.mpr h
  rw [configFrom?, loadConfig_of_none ((readOnly_findConfig start).run_eq hnone)]
  rfl

/-- As long as no configuration is outside of where a path is seen from, the path loads the same configuration as
any absolute path of the directory. -/
theorem configFrom?_eq_of_isAbsolute (htop : ∀ place, Configures d (d.placeOf start) place → d.top start <+: place)
    {d' : Disk} (hd' : d'.Rooted) (hnodes : d'.nodes = d.nodes) {other : String} (hup' : ".." ∉ Path.segments other)
    (habsolute : Path.isAbsolute other = true) (hnames : Path.names other = d.placeOf start) :
    configFrom? d' other = configFrom? d start := by
  have hnode : d'.node? = d.node? := by
    funext place
    rw [node?, node?, hnodes]
  have hplace : d'.placeOf other = d.placeOf start := by rw [placeOf_of_isAbsolute habsolute, hnames]
  have htop' : d'.top other = [] := if_pos habsolute
  -- Both disks have the same entries and both searches start at the same place.
  have hsame : ∀ place, Configures d' (d.placeOf start) place ↔ Configures d (d.placeOf start) place := by
    intro place
    have hholds : ∀ inner name, d'.Holds inner name ↔ d.Holds inner name := by
      intro inner name
      simp only [Holds, Open, OpenFrom, hnode]
    simp only [configures_iff, hholds]
  by_cases hsome : ∃ place, Configures d (d.placeOf start) place
  · obtain ⟨place, h⟩ := hsome
    rw [configFrom?_eq_configIn? hd hup (htop place h) h,
      configFrom?_eq_configIn? hd' hup' (htop' ▸ List.nil_prefix) (hplace ▸ (hsame place).mpr h), configIn?, hnode,
      configIn?]
  · rw [configFrom?_eq_default hd hup fun place _ h => hsome ⟨place, h⟩]
    refine configFrom?_eq_default hd' hup' fun place _ h => hsome ⟨place, ?_⟩
    exact (hsame place).mp (hplace ▸ h)

end

end Project

/-- **Search**: a search goes through the directories that a path is shortened to. Without `..` in it, the
configuration of the directory is found that the names in the path say, unless it is in a directory outside of where
the path is seen from. So an absolute path always loads the configuration of its directory, as a command in the
directory does, and a relative path loads the default configuration instead when that of its directory is outside of
the current one. -/
theorem findConfig_configures {d : Disk} (hd : d.Rooted) (start : String) :
    findConfig Disk.access start d = (((Path.ancestors start).find? (endsAt d)).bind (configPathIn? d), d) ∧
    (".." ∉ Path.segments start →
      Nearest d (d.top start) (d.placeOf start) (findConfig Disk.access start d).1 ∧
      ((∀ place, Configures d (d.placeOf start) place → d.top start <+: place) →
        (∀ other, ".." ∉ Path.segments other → Path.isAbsolute other = true → Path.names other = d.placeOf start →
          Project.configFrom? d other = Project.configFrom? d start) ∧
        ∀ (o : ProjectOptions) (inside : Disk), o.path = none → inside = { d with current := d.placeOf start } →
          inside.Rooted →
            Project.configFrom? inside (Project.startOf Disk.access o inside).1 = Project.configFrom? d start) ∧
      ((∃ place, Configures d (d.placeOf start) place ∧ ¬d.top start <+: place) →
        Project.configFrom? d start = some .default)) := by
  refine ⟨findConfigIn_eq d _, fun hup => ⟨nearest_findConfig hd hup, fun htop => ⟨?_, ?_⟩, fun hout => ?_⟩⟩
  · intro other hother habsolute hnames
    exact Project.configFrom?_eq_of_isAbsolute hd hup htop hd rfl hother habsolute hnames
  -- Without a path, the search starts at the current directory, whose path is written from the root.
  · rintro o inside hpath rfl hinside
    have hnamed := hd.isName_placeOf hup
    rw [Project.startOf, hpath]
    exact Project.configFrom?_eq_of_isAbsolute hd hup htop hinside rfl (up_not_mem_segments_pathOf hnamed)
      (isAbsolute_pathOf _) (names_pathOf hnamed)
  · obtain ⟨place, h, hout⟩ := hout
    -- The one configured directory that is nearest lies outside what the search goes through.
    refine Project.configFrom?_eq_default hd hup fun inner htop hinner => hout ?_
    rwa [h.unique hinner]

/-- A configured directory with another one in it, which is the current one. -/
def Disk.nested : Disk where
  nodes := .ofList
    [("/project", .directory), ("/project/.loccatrc.json", .file (some "\x7b\x7d")), ("/project/sub", .directory)]
  current := ["project", "sub"]

/-- The absolute path of the inner directory leads to the configuration of the outer one. -/
theorem findConfig_configures_nested :
    ∃ path, (findConfig Disk.access "/project/sub" Disk.nested).1 = some path ∧
      Disk.nested.place? path = some ["project", ".loccatrc.json"] := by
  have hd : Disk.nested.Rooted := by decide
  have hsearch := (findConfig_configures hd "/project/sub").2 (by decide)
  exact (hsearch.1.some_iff ["project"]).mpr ⟨by decide, by decide⟩

/-- A dot is a path of the same directory, and leads to no configuration. -/
theorem findConfig_dot_nested :
    Disk.nested.Rooted ∧ Disk.nested.placeOf "." = Disk.nested.placeOf "/project/sub" ∧
      (findConfig Disk.access "." Disk.nested).1 = none ∧
      (findConfig Disk.access "/project/sub" Disk.nested).1 = some "/project/.loccatrc.json" := by
  decide

end Phrasebook
