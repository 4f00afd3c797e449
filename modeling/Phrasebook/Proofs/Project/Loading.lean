import Phrasebook.Project.Basic
import Phrasebook.Proofs.KeyMap
import Phrasebook.Proofs.Project.Search
import Phrasebook.Proofs.Traverse

/-!
# What a project is loaded and compiled from

To load a project and to read its sources only looks at a disk. What a compilation then has of a source is what stands
on the disk at the place of the source.

## Layers

- `Project.readOnly_load`, `Project.readOnly_compile`: nothing is written.
- `Project.sourceOn`: what a disk has of the sources of a project.
- `Project.loader_readSources`: that is what a compilation is given of them.
-/

namespace Phrasebook

open Disk

/-! ## §1 Loading -/

namespace Project

theorem readOnly_loadConfig (start : String) : ReadOnly (loadConfig Disk.access start) := by
  refine (readOnly_findConfig start).bind fun found => ?_
  cases found with
  | none => exact .pure _
  | some path => exact (readOnly_readText? path).bind fun _ => .pure _

theorem readOnly_loadContracts (path : String) : ReadOnly (loadContracts Disk.access path) :=
  (readOnly_exists? path).bind fun _ => .ite ((readOnly_readText? path).bind fun _ => .pure _) (.pure _)

theorem readOnly_startOf (o : ProjectOptions) : ReadOnly (startOf Disk.access o) := by
  unfold startOf
  split
  · exact .pure _
  · exact readOnly_currentDirectory

/-- To load a project only looks at a disk. -/
theorem readOnly_load (o : ProjectOptions) : ReadOnly (load Disk.access o) := by
  refine (readOnly_startOf o).bind fun start => (readOnly_loadConfig start).bind fun loaded => ?_
  cases loaded with
  | error e => exact .pure _
  | ok found =>
    obtain ⟨c, root⟩ := found
    dsimp only
    cases withDefault c o.defaultLocale with
    | error e => exact .pure _
    | ok c => exact (readOnly_loadContracts _).bind fun _ => .pure _

/-! ## §2 Reading -/

/-- What a disk has at the path of a source. -/
def sourceAt (d : Disk) (path : String) : SourceFile :=
  match d.nodeAt? path with
  | some (.file (some content)) => .text content
  | some (.file none) => .unreadable
  | _ => .missing

theorem readSource_access (path : String) (d : Disk) : readSource Disk.access path d = (sourceAt d path, d) := by
  have hkind : access.kind? path d = ((d.nodeAt? path).map kindOf, d) := rfl
  have htext : access.readText? path d = ((d.nodeAt? path).bind textOf?, d) := rfl
  rw [readSource, bind_run, hkind, sourceAt, ite_run]
  match hnode : d.nodeAt? path with
  | none => rfl
  | some .directory => rfl
  | some (.file none) => simp [kindOf, bind_run, htext, hnode, textOf?, pure_run]
  | some (.file (some content)) => simp [kindOf, bind_run, htext, hnode, textOf?, pure_run]

theorem readSources_cons (path : String) (paths : List String) (d : Disk) :
    readSources Disk.access (path :: paths) d =
      ((readSources Disk.access paths d).1.insert path (sourceAt d path), (readSources Disk.access paths d).2) := by
  rw [readSources, bind_run, readSource_access]
  rfl

theorem readOnly_readSources (paths : List String) : ReadOnly (readSources Disk.access paths) := by
  induction paths with
  | nil => exact .pure _
  | cons path paths ih =>
    intro d
    rw [readSources_cons, ih d]

/-- All sources that are read are kept. -/
theorem get?_readSources {paths : List String} {path : String} (h : path ∈ paths) (d : Disk) :
    (readSources Disk.access paths d).1.get? path = some (sourceAt d path) := by
  induction paths with
  | nil => cases h
  | cons first paths ih =>
    rw [readSources_cons, KeyMap.get?_insert]
    split
    · rename_i heq
      rw [heq]
    · rename_i hne
      exact ih ((List.mem_cons.mp h).resolve_left (by simpa [eq_comm] using hne))

/-! ## §3 Compilation -/

/-- What a disk has of the sources of a project. -/
def sourceOn (p : Project) (d : Disk) : SourceLoader := fun locale file =>
  let path := p.config.sourcePath p.root locale file
  lookupOf path (sourceAt d path)

/-- A compilation is given what the disk has of the files of the contracts. -/
theorem loader_readSources (p : Project) (d : Disk) {c : Contract} (hc : c ∈ p.contracts) {locale : String}
    (hlocale : locale ∈ p.config.locales) :
    p.loader (readSources Disk.access p.sourcePaths d).1 locale (c.fileName p.config.package) =
      p.sourceOn d locale (c.fileName p.config.package) := by
  have hmem : p.config.sourcePath p.root locale (c.fileName p.config.package) ∈ p.sourcePaths :=
    List.mem_flatMap.mpr ⟨c, hc, List.mem_map.mpr ⟨locale, hlocale, rfl⟩⟩
  rw [loader, sourceOn, get?_readSources hmem, Option.getD_some]

/-- What a compilation of a project on a disk yields. -/
def compiled (p : Project) (d : Disk) : Except CompileError CompileOutput := (p.compile Disk.access d).1

/-- To compile a project only looks at a disk. -/
theorem readOnly_compile (p : Project) : ReadOnly (p.compile Disk.access) :=
  (readOnly_readSources p.sourcePaths).bind fun _ => .pure _

theorem compiled_eq (p : Project) (d : Disk) :
    p.compiled d = p.compileFrom (readSources Disk.access p.sourcePaths d).1 := rfl

theorem settings_of_config {c : Config} {s : Settings} (h : c.settings = .ok s) :
    s.locales = c.locales ∧ s.package = c.package := by
  simp only [Config.settings, bind_eq_ok, pure_eq_ok] at h
  obtain ⟨_, -, _, -, rfl⟩ := h
  exact ⟨rfl, rfl⟩

/-- A compilation of a project that succeeds is one of its contracts, with valid settings of its configuration. -/
theorem exists_compile_of_compiled {p : Project} {d : Disk} {o : CompileOutput} (h : p.compiled d = .ok o) :
    ∃ s, s.locales = p.config.locales ∧ s.package = p.config.package ∧
      Compile.compile s p.contracts (p.loader (readSources Disk.access p.sourcePaths d).1) = .ok o := by
  rw [compiled_eq, compileFrom, bind_eq_ok] at h
  obtain ⟨s, hs, hcompile⟩ := h
  obtain ⟨hlocales, hpackage⟩ := settings_of_config hs
  exact ⟨s, hlocales, hpackage, hcompile⟩

end Project

end Phrasebook
