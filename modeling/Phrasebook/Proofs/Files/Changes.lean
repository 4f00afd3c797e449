import Phrasebook.Proofs.Files.Disk
import Phrasebook.Proofs.KeyMap

/-!
# What changes on a disk

A disk is changed by making directories and by writing files. Neither takes a directory away, so each path goes on
leading where it led; and nothing but the directories that were made and the file that was written is different.

## Layers

- `Keeps`: a disk that has all directories of another one.
- `Adds`: new directories and nothing else; `adds_makeDirectory?` is one of them, `adds_makeDirectories` all.
- `Writes`: one file, and the directories around it.
-/

namespace Phrasebook.Disk

/-! ## §1 Directories that are kept -/

/-- A disk has all directories of another one, and the same current directory. -/
structure Keeps (d d' : Disk) : Prop where
  current : d'.current = d.current
  directory : ∀ place, d.node? place = some .directory → d'.node? place = some .directory

theorem Keeps.refl (d : Disk) : Keeps d d := ⟨rfl, fun _ h => h⟩

theorem Keeps.trans {d d' d'' : Disk} (h : Keeps d d') (h' : Keeps d' d'') : Keeps d d'' where
  current := h'.current.trans h.current
  directory := fun place hplace => h'.directory place (h.directory place hplace)

theorem Keeps.follow {d d' : Disk} (h : Keeps d d') {names base place : List String}
    (hfollow : d.follow base names = some place) : d'.follow base names = some place := by
  induction names generalizing base with
  | nil => exact hfollow
  | cons name names ih =>
    rw [Disk.follow] at hfollow ⊢
    -- What is a directory stays one, so each step goes the same way on both disks.
    by_cases hbase : d.node? base = some .directory
    · rw [if_neg (by simpa using hbase)] at hfollow
      rw [if_neg (by simpa using h.directory base hbase)]
      by_cases hvoid : Path.isVoid name = true
      · rw [if_pos hvoid] at hfollow ⊢
        exact ih hfollow
      · rw [if_neg hvoid] at hfollow ⊢
        by_cases hup : name = ".."
        · rw [if_pos hup] at hfollow ⊢
          exact ih hfollow
        · rw [if_neg hup] at hfollow ⊢
          exact ih hfollow
    · rw [if_pos hbase] at hfollow
      cases hfollow

/-- A path leads where it led before. -/
theorem Keeps.place? {d d' : Disk} (h : Keeps d d') {path : String} {place : List String}
    (hplace : d.place? path = some place) : d'.place? path = some place := by
  by_cases hempty : path = ""
  · subst hempty
    cases hplace
  · rw [place?_eq_follow _ hempty, top] at hplace ⊢
    rw [h.current]
    exact h.follow hplace

theorem node?_of_ne_nil (d : Disk) {place : List String} (h : place ≠ []) :
    d.node? place = d.nodes.get? (pathOf place) := by
  rw [node?, if_neg (by simpa using h)]

theorem ne_nil_of_node? {d : Disk} {place : List String} (h : d.node? place ≠ some .directory) : place ≠ [] := by
  rintro rfl
  exact h d.node?_nil

theorem get?_nodes_set (d : Disk) (place : List String) (n : DiskNode) (key : String) :
    (d.set place n).nodes.get? key = if key = pathOf place then some n else d.nodes.get? key :=
  KeyMap.get?_insert d.nodes (pathOf place) key n

theorem node?_set_self (d : Disk) {place : List String} (h : place ≠ []) (n : DiskNode) :
    (d.set place n).node? place = some n := by
  rw [node?_of_ne_nil _ h, get?_nodes_set, if_pos rfl]

/-- What is set where no directory is leaves all directories. -/
theorem keeps_set {d : Disk} {place : List String} (h : d.node? place ≠ some .directory) (n : DiskNode) :
    Keeps d (d.set place n) where
  current := rfl
  directory := by
    intro other hother
    by_cases hroot : other = []
    · rw [hroot]
      exact node?_nil _
    · -- The other place is a directory and this one is not, so they differ.
      rw [node?_of_ne_nil _ hroot] at hother ⊢
      rw [get?_nodes_set, if_neg, hother]
      intro heq
      rw [node?_of_ne_nil _ (ne_nil_of_node? h), ← heq] at h
      exact h hother

/-! ## §2 New directories -/

/-- At a key there is a directory where there was nothing, and one of some paths leads to it. -/
def IsNew (paths : List String) (d d' : Disk) (key : String) : Prop :=
  d.nodes.get? key = none ∧ d'.nodes.get? key = some .directory ∧
    ∃ path ∈ paths, ∃ place, d'.place? path = some place ∧ pathOf place = key

/-- A disk has new directories at some paths, and is the same as another one otherwise. -/
structure Adds (paths : List String) (d d' : Disk) : Prop where
  keeps : Keeps d d'
  nodes : ∀ key, d'.nodes.get? key = d.nodes.get? key ∨ IsNew paths d d' key

theorem Adds.refl (paths : List String) (d : Disk) : Adds paths d d := ⟨.refl d, fun _ => .inl rfl⟩

theorem Adds.mono {paths paths' : List String} {d d' : Disk} (h : Adds paths d d') (hsub : paths ⊆ paths') :
    Adds paths' d d' where
  keeps := h.keeps
  nodes := fun key => (h.nodes key).imp_right fun hnew => by
    obtain ⟨hbefore, hbehind, path, hpath, hleads⟩ := hnew
    exact ⟨hbefore, hbehind, path, hsub hpath, hleads⟩

theorem Adds.trans {paths : List String} {d d' d'' : Disk} (h : Adds paths d d') (h' : Adds paths d' d'') :
    Adds paths d d'' where
  keeps := h.keeps.trans h'.keeps
  nodes := by
    intro key
    rcases h.nodes key with hsame | ⟨hbefore, hbehind, path, hpath, place, hplace, hkey⟩
    · rcases h'.nodes key with hsame' | ⟨hbefore, hnew⟩
      · exact .inl (hsame'.trans hsame)
      · exact .inr ⟨hsame ▸ hbefore, hnew⟩
    · -- What was new before is a directory, and stays one.
      rcases h'.nodes key with hsame' | ⟨hnone, -⟩
      · exact .inr ⟨hbefore, hsame'.trans hbehind, path, hpath, place, h'.keeps.place? hplace, hkey⟩
      · rw [hbehind] at hnone
        cases hnone

theorem adds_makeDirectory? {d d' : Disk} {path : String} (hend : Path.withoutVoidEnd path = path)
    (h : d.makeDirectory? path = some d') : Adds [path] d d' := by
  unfold makeDirectory? at h
  rw [hend] at h
  split at h
  · obtain rfl := Option.some.inj h
    exact .refl _ d
  · split at h
    · cases h
    · rename_i place hplace
      split at h
      · cases h
      · rename_i hsome
        obtain rfl := Option.some.inj h
        have hnone : d.node? place = none := by simpa using hsome
        have hfree : d.node? place ≠ some .directory := by simp [hnone]
        -- Nothing is at this place yet, so nothing is lost there.
        have hkeeps := keeps_set hfree .directory
        refine ⟨hkeeps, fun key => ?_⟩
        rw [IsNew, get?_nodes_set]
        split
        · rename_i hkey
          rw [node?_of_ne_nil d (ne_nil_of_node? hfree), ← hkey] at hnone
          exact .inr ⟨hnone, rfl, path, List.mem_singleton_self path, place, hkeeps.place? hplace, hkey.symm⟩
        · exact .inl rfl

theorem adds_makeEach {d : Disk} {paths : List String} (hend : ∀ path ∈ paths, Path.withoutVoidEnd path = path) :
    Adds paths d (d.makeEach paths).2 := by
  induction paths generalizing d with
  | nil => exact .refl _ d
  | cons path paths ih =>
    rw [makeEach]
    cases hmake : d.makeDirectory? path with
    | none => exact .refl _ d
    | some d' =>
      have hfirst := adds_makeDirectory? (hend path List.mem_cons_self) hmake
      have hrest := @ih d' fun p hp => hend p (List.mem_cons_of_mem path hp)
      exact (hfirst.mono (by simp)).trans (hrest.mono (List.subset_cons_self path paths))

/-- The directories that are made are the one of a path, and those around it. -/
theorem adds_makeDirectories {path directory : String} (h : Path.parent? path = some directory) (d : Disk) :
    Adds (Path.ancestors directory) d (d.makeDirectories directory).2 := by
  refine (adds_makeEach fun around haround => ?_).mono ?_
  · obtain ⟨hmem, hne⟩ := List.mem_filter.mp haround
    obtain ⟨inner, hinner⟩ := Path.exists_parent?_of_mem_ancestorsWithin h (List.mem_reverse.mp hmem)
    exact Path.withoutVoidEnd_of_parent? hinner (by simpa using hne)
  · intro around haround
    exact List.mem_reverse.mp (List.mem_of_mem_filter haround)

/-! ## §3 Files -/

/-- A text is written to a file where a path leads, if that is no directory; and otherwise nothing is. -/
theorem writeText_cases (d : Disk) (path text : String) :
    (∃ place, d.place? path = some place ∧ d.node? place ≠ some .directory ∧
        d.writeText path text = (true, d.set place (.file (some text)))) ∨
      d.writeText path text = (false, d) ∧ ∀ place, d.place? path = some place → d.node? place = some .directory := by
  unfold writeText
  cases hplace : d.place? path with
  | none => exact .inr ⟨rfl, fun place h => by cases h⟩
  | some place =>
    by_cases hdirectory : d.node? place = some .directory
    · refine .inr ⟨if_pos hdirectory, fun other h => ?_⟩
      rwa [← Option.some.inj h]
    · exact .inl ⟨place, rfl, hdirectory, if_neg hdirectory⟩

/-- At a place, and at the path that leads there, a file has a text. Where it was, there may have been another file;
nothing else is different but for new directories at some paths. -/
structure Writes (path text : String) (paths : List String) (d d' : Disk) (place : List String) : Prop where
  current : d'.current = d.current
  leads : d'.place? path = some place
  content : d'.node? place = some (.file (some text))
  free : d.node? place ≠ some .directory
  others : ∀ key, key ≠ pathOf place → d'.nodes.get? key = d.nodes.get? key ∨ IsNew paths d d' key

/-- A file that is written when its directory was made. -/
theorem Adds.writes {paths : List String} {d d' : Disk} (h : Adds paths d d') {path text : String}
    {place : List String} (hplace : d'.place? path = some place) (hfree : d'.node? place ≠ some .directory) :
    Writes path text paths d (d'.set place (.file (some text))) place := by
  have hkeeps := keeps_set hfree (.file (some text))
  refine ⟨h.keeps.current, hkeeps.place? hplace, node?_set_self _ (ne_nil_of_node? hfree) _, ?_, fun key hkey => ?_⟩
  · exact fun hdirectory => hfree (h.keeps.directory place hdirectory)
  · -- To write the file changes nothing at other keys.
    have hset := get?_nodes_set d' place (.file (some text)) key
    rw [if_neg hkey] at hset
    rw [IsNew, hset]
    refine (h.nodes key).imp_right fun hnew => ?_
    obtain ⟨hbefore, hbehind, around, haround, other, hother, heq⟩ := hnew
    exact ⟨hbefore, hbehind, around, haround, other, hkeeps.place? hother, heq⟩

end Phrasebook.Disk
