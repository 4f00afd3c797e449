import Phrasebook.Command.Run
import Phrasebook.Proofs.Files.Changes
import Phrasebook.Proofs.Project.Loading

/-!
# What commands write

Most commands only look at a disk. One writes a module, after it has compiled the project, and makes the directories
around it; one writes a configuration where there is none.

## Layers

- `compileProject_of_load`, `readOnly_compileProject`: what all commands but the last begin with.
- `adds_makeParent`, `generated_cases`: writing a module.
- `initialized_cases`, `loadConfig_of_defaultText`: writing a configuration, and reading it again.
- `run_effect`: all commands.
-/

namespace Phrasebook

open Disk

/-- The directories around a path, the innermost first. -/
def Path.directories (path : String) : List String := ((parent? path).map ancestors).getD []

namespace Command

/-! ## §1 Commands that read -/

theorem readOnly_compileProject (o : ProjectOptions) : ReadOnly (compileProject Disk.access o) := by
  refine (Project.readOnly_load o).bind fun loaded => ?_
  cases loaded with
  | error e => exact .pure _
  | ok p => exact p.readOnly_compile.bind fun _ => .pure _

/-- Where a project can be loaded, a command compiles it. -/
theorem compileProject_of_load {d : Disk} {o : ProjectOptions} {p : Project}
    (hload : (Project.load Disk.access o d).1 = .ok p) :
    compileProject Disk.access o d = (.ok (p.compiled d), d) := by
  have hcompile : p.compile Disk.access d = (p.compiled d, d) := p.readOnly_compile.run_eq rfl
  rw [compileProject, bind_run, (Project.readOnly_load o).run_eq hload]
  dsimp only
  rw [bind_run, hcompile]
  rfl

/-- Where a project cannot be loaded, a command does not begin. -/
theorem compileProject_of_load_error {d : Disk} {o : ProjectOptions} {e : ProjectError}
    (hload : (Project.load Disk.access o d).1 = .error e) : compileProject Disk.access o d = (.error e, d) := by
  rw [compileProject, bind_run, (Project.readOnly_load o).run_eq hload]
  rfl

theorem readOnly_check (o : ProjectOptions) : ReadOnly ((check o).run Disk.access) :=
  (readOnly_compileProject o).bind fun _ => .pure _

theorem readOnly_render (contract key : String) (locale : Option String) (arguments : List String)
    (o : ProjectOptions) : ReadOnly ((render contract key locale arguments o).run Disk.access) := by
  rw [run]
  cases readArguments arguments with
  | error e => exact .pure _
  | ok args => exact (readOnly_compileProject o).bind fun _ => .pure _

theorem readOnly_generate_none (o : ProjectOptions) : ReadOnly ((generate none o).run Disk.access) := by
  refine (readOnly_compileProject o).bind fun compiled => ?_
  cases compiled with
  | error e => exact .pure _
  | ok result => cases result <;> exact .pure _

/-! ## §2 Writing a module -/

/-- To make the directory of a path adds directories around the path, whether or not it succeeds. -/
theorem adds_makeParent (path : String) (d : Disk) :
    Adds (Path.directories path) d (makeParent Disk.access path d).2 := by
  unfold makeParent Path.directories
  cases hparent : Path.parent? path with
  | none => exact .refl _ d
  | some parent =>
    dsimp only
    rw [ite_run]
    split
    · exact .refl _ d
    · have hmake : Disk.access.makeDirectories parent d = d.makeDirectories parent := rfl
      have hadds := adds_makeDirectories hparent d
      rw [bind_run, ite_run, hmake, pure_run, pure_run]
      split
      · exact hadds
      · exact hadds

theorem writeFile_cases (path text : String) (d : Disk) :
    (∃ place, d.place? path = some place ∧ d.node? place ≠ some .directory ∧
        writeFile Disk.access path text d = (.ok (), d.set place (.file (some text)))) ∨
      ∃ e, writeFile Disk.access path text d = (.error e, d) ∧
        ∀ place, d.place? path = some place → d.node? place = some .directory := by
  have hwrite : Disk.access.writeText path text d = d.writeText path text := rfl
  rw [writeFile, bind_run, hwrite]
  rcases writeText_cases d path text with ⟨place, hplace, hfree, htext⟩ | ⟨htext, htaken⟩
  · rw [htext]
    exact .inl ⟨place, hplace, hfree, rfl⟩
  · rw [htext]
    exact .inr ⟨_, rfl, htaken⟩

/-- The directory of a path can be made, and the path leads then to a place where a file can be written. -/
def Writable (path : String) (d : Disk) : Prop :=
  ∃ d' place, makeParent Disk.access path d = (.ok (), d') ∧ d'.place? path = some place ∧
    d'.node? place ≠ some .directory

/-- What is told of a module that was written to a file. -/
def writtenSummary (path : String) (o : CompileOutput) : CommandSummary :=
  .generate none (some path) o.tables.length (keyCount o.tables)

/-- A module is either written, with its directories, or it cannot be, and the directories that could be made are all
there is. -/
theorem generated_cases (path : String) (o : CompileOutput) (d : Disk) :
    (∃ e d', generated Disk.access (some path) (.ok o) d = (.error e, d') ∧ ¬Writable (modulePath path) d ∧
        Adds (Path.directories (modulePath path)) d d') ∨
      ∃ r d' place, generated Disk.access (some path) (.ok o) d = (.ok r, d') ∧
        r.summary = writtenSummary (modulePath path) o ∧
        Writes (modulePath path) (moduleText o) (Path.directories (modulePath path)) d d' place := by
  have hadds := adds_makeParent (modulePath path) d
  unfold generated
  dsimp only
  rw [bind_run]
  rcases hmake : makeParent Disk.access (modulePath path) d with ⟨e | _, d'⟩
  · rw [hmake] at hadds
    refine .inl ⟨e, d', rfl, fun hwritable => ?_, hadds⟩
    obtain ⟨_, _, hmade, -⟩ := hwritable
    rw [hmake] at hmade
    cases hmade
  · -- The file is written on the disk that has the directories already.
    rw [hmake] at hadds
    dsimp only at hadds ⊢
    rw [bind_run]
    rcases writeFile_cases (modulePath path) (moduleText o) d' with
      ⟨place, hplace, hfree, hwrite⟩ | ⟨e, hwrite, htaken⟩
    · rw [hwrite]
      exact .inr ⟨_, _, place, rfl, rfl, hadds.writes hplace hfree⟩
    · rw [hwrite]
      refine .inl ⟨e, d', rfl, fun hwritable => ?_, hadds⟩
      obtain ⟨made, place, hmade, hplace, hfree⟩ := hwritable
      obtain rfl : d' = made := congrArg Prod.snd (hmake.symm.trans hmade)
      exact hfree (htaken place hplace)

/-- The path of a module: a name without extension gets one, and stays in its directory. -/
structure IsModulePath (path target : String) : Prop where
  same : Path.extension? path ≠ none ∨ Path.fileName? path = none → target = path
  extended : ∀ name, Path.fileName? path = some name → Path.extension? path = none →
    Path.fileName? target = some (name ++ ".rs") ∧ Path.parent? target = Path.parent? path

theorem isModulePath_modulePath (path : String) : IsModulePath path (modulePath path) where
  same := by
    intro h
    unfold modulePath
    split
    · rename_i hextension
      have hname := h.resolve_left (by simpa using hextension)
      rw [Path.addExtension, hname]
    · rfl
  extended := by
    intro name hname hextension
    have hslash : '/' ∉ "rs".toList := by decide
    rw [modulePath, if_pos (by simp [hextension]), Path.fileName?_addExtension hname hslash (by decide),
      Path.parent?_addExtension hname hslash (by decide), String.append_assoc]
    exact ⟨rfl, rfl⟩

example : modulePath "generated/words" = "generated/words.rs" := by decide +kernel

/-! ## §3 Writing a configuration -/

/-- The path of the configuration of a new project. -/
def initPath (directory : Option String) : String :=
  (directory.map fun d => Path.joined d configFileName).getD configFileName

theorem read?_defaultText : Config.read? Config.defaultText = some .default := by
  -- The text is read as it was printed, without a detour over its bytes.
  rw [Config.read?, Config.defaultText, Json.pretty, String.toList_ofList]
  decide +kernel

theorem validate_default : Config.default.validate = .ok () := by decide +kernel

theorem decodeConfig_defaultText (path : String) :
    Project.decodeConfig path (some Config.defaultText) = .ok .default := by
  rw [Project.decodeConfig, read?_defaultText]
  dsimp only
  rw [validate_default]

/-- A directory whose configuration file is the default one has the default configuration. -/
theorem loadConfig_of_defaultText {d : Disk} {start : String} {place : List String}
    (hplace : d.place? (Path.joined start configFileName) = some place)
    (hnode : d.node? place = some (.file (some Config.defaultText))) :
    (Project.loadConfig Disk.access start d).1.map Prod.fst = .ok .default := by
  have hfound : d.nodeAt? (Path.joined start configFileName) = some (.file (some Config.defaultText)) := by
    rw [nodeAt?, hplace, Option.bind_some, hnode]
  -- The directory itself is the first one of a search.
  have hfind : findConfig Disk.access start d = (some (Path.joined start configFileName), d) := by
    obtain ⟨rest, hrest⟩ := Path.exists_ancestors_eq_cons start
    rw [findConfig, hrest, findConfigIn_cons, if_pos (by simp [hfound])]
  rw [Project.loadConfig_of_some hfind, hfound, Option.bind_some, textOf?, decodeConfig_defaultText]
  rfl

/-- At a path where nothing was, there is the default configuration, and nothing else is different. The configuration
is valid, and is loaded again in whatever way the path is written. -/
structure Begins (path : String) (d d' : Disk) (place : List String) : Prop where
  before : d.place? path = some place ∧ d.node? place = none
  written : d' = d.set place (.file (some Config.defaultText)) ∧ d'.place? path = some place
  valid : Config.default.validate = .ok ()
  loaded : ∀ start, d'.place? (Path.joined start configFileName) = some place →
    (Project.loadConfig Disk.access start d').1.map Prod.fst = .ok .default

theorem begins_set {d : Disk} {path : String} {place : List String} (hplace : d.place? path = some place)
    (hnone : d.node? place = none) : Begins path d (d.set place (.file (some Config.defaultText))) place := by
  have hfree : d.node? place ≠ some .directory := by simp [hnone]
  have hleads := (keeps_set hfree (.file (some Config.defaultText))).place? hplace
  refine ⟨⟨hplace, hnone⟩, ⟨rfl, hleads⟩, validate_default, fun start hstart => ?_⟩
  exact loadConfig_of_defaultText hstart (node?_set_self d (ne_nil_of_node? hfree) _)

/-- Where something is, nothing is done; where nothing is, the default configuration is written, if the path leads
there at all. -/
theorem initialized_cases (directory : Option String) (d : Disk) :
    (∃ r, initialized Disk.access directory d = (.ok r, d) ∧ r.summary = .init (initPath directory) true ∧
        d.nodeAt? (initPath directory) ≠ none) ∨
      (∃ r d' place, initialized Disk.access directory d = (.ok r, d') ∧
        r.summary = .init (initPath directory) false ∧ Begins (initPath directory) d d' place) ∨
      ∃ e, initialized Disk.access directory d = (.error e, d) ∧ d.place? (initPath directory) = none := by
  unfold initialized
  rw [bind_run, exists?_access, ite_run]
  split
  · rename_i hsome
    exact .inl ⟨_, rfl, rfl, by simpa [initPath, Option.ne_none_iff_isSome] using hsome⟩
  · rename_i hnothing
    have hnone : d.nodeAt? (initPath directory) = none := by simpa [initPath] using hnothing
    rw [bind_run]
    rcases writeFile_cases (initPath directory) Config.defaultText d with
      ⟨place, hplace, -, hwrite⟩ | ⟨e, hwrite, htaken⟩
    · rw [nodeAt?, hplace, Option.bind_some] at hnone
      rw [initPath] at hwrite
      rw [hwrite]
      exact .inr (.inl ⟨_, _, place, rfl, rfl, begins_set hplace hnone⟩)
    · rw [initPath] at hwrite
      rw [hwrite]
      refine .inr (.inr ⟨e, rfl, ?_⟩)
      -- Something would have to be in the way, and nothing is there.
      by_contra hsome
      obtain ⟨place, hplace⟩ := Option.ne_none_iff_exists'.mp hsome
      rw [nodeAt?, hplace, Option.bind_some, htaken place hplace] at hnone
      cases hnone

/-! ## §4 All commands -/

/-- A command that generates a module goes on from the compilation of its project. -/
theorem run_generate {d : Disk} {o : ProjectOptions} {p : Project} (output : Option String)
    (hload : (Project.load Disk.access o d).1 = .ok p) :
    (generate output o).run Disk.access d = generated Disk.access output (p.compiled d) d := by
  rw [run, bind_run, compileProject_of_load hload]

/-- A project that is loaded and compiled from a disk. -/
def Compiles (d : Disk) (o : ProjectOptions) (result : CompileOutput) : Prop :=
  ∃ p, (Project.load Disk.access o d).1 = .ok p ∧ p.compiled d = .ok result

/-- Where there is no compiled project, a command that generates a module leaves the disk as it is. -/
theorem run_generate_unchanged {d : Disk} {o : ProjectOptions} (output : Option String)
    (h : ¬∃ result, Compiles d o result) : ((generate output o).run Disk.access d).2 = d := by
  cases hload : (Project.load Disk.access o d).1 with
  | error e =>
    rw [run, bind_run, compileProject_of_load_error hload]
    rfl
  | ok p =>
    rw [run_generate output hload]
    cases hcompiled : p.compiled d with
    | error e => rfl
    | ok result => exact absurd ⟨result, p, hload, hcompiled⟩ h

/-- What is done to a disk by generating a module to a file: nothing where there is no compiled project, and otherwise
the module is written, or it cannot be. -/
def GenerateEffect (d : Disk) (path : String) (o : ProjectOptions) (outcome : Except ProjectError CommandResult)
    (d' : Disk) : Prop :=
  ((¬∃ result, Compiles d o result) → d' = d) ∧
    ∀ result, Compiles d o result → IsModulePath path (modulePath path) ∧
      match outcome with
      | .error _ => ¬Writable (modulePath path) d ∧ Adds (Path.directories (modulePath path)) d d'
      | .ok r => r.summary = writtenSummary (modulePath path) result ∧ ∃ place,
        Writes (modulePath path) (moduleText result) (Path.directories (modulePath path)) d d' place

/-- What is done to a disk by beginning a project: something is there already, or the configuration is written, or its
path leads nowhere. -/
def InitEffect (d : Disk) (directory : Option String) (outcome : Except ProjectError CommandResult) (d' : Disk) :
    Prop :=
  match outcome with
  | .error _ => d.place? (initPath directory) = none ∧ d' = d
  | .ok r =>
    (r.summary = .init (initPath directory) true ∧ d.nodeAt? (initPath directory) ≠ none ∧ d' = d) ∨
      r.summary = .init (initPath directory) false ∧ ∃ place, Begins (initPath directory) d d' place

/-- What a command does to a disk, by its outcome and the disk behind it. -/
def Effect (d : Disk) (command : Command) (outcome : Except ProjectError CommandResult) (d' : Disk) : Prop :=
  match command with
  | check _ => d' = d
  | render .. => d' = d
  | generate none _ => d' = d
  | generate (some path) o => GenerateEffect d path o outcome d'
  | init directory => InitEffect d directory outcome d'

/-- **Effects**: commands that check, render or show a module leave a disk as it is. A command that generates a module
to a file does so, too, where the project cannot be loaded or compiled; otherwise it writes the module to the file
that it names in its result, unless none can be written there, and makes no more than the directories around it. A
command that begins a project writes the default configuration where nothing is, and says so; where something is, it
says that, and changes nothing. -/
theorem run_effect (command : Command) (d : Disk) :
    Effect d command (command.run Disk.access d).1 (command.run Disk.access d).2 := by
  match command with
  -- Three commands only read; the other two are cut into the outcomes of their one write.
  | check o => exact readOnly_check o d
  | render contract key locale arguments o => exact readOnly_render contract key locale arguments o d
  | generate none o => exact readOnly_generate_none o d
  | generate (some path) o =>
    refine ⟨run_generate_unchanged (some path), fun result hcompiles => ⟨isModulePath_modulePath path, ?_⟩⟩
    obtain ⟨p, hload, hcompiled⟩ := hcompiles
    rw [run_generate (some path) hload, hcompiled]
    have hcases := generated_cases path result d
    generalize generated Disk.access (some path) (.ok result) d = behind at hcases ⊢
    rcases hcases with ⟨e, d', rfl, hadds⟩ | ⟨r, d', place, rfl, hsummary, hwrites⟩
    · exact hadds
    · exact ⟨hsummary, place, hwrites⟩
  | init directory =>
    rw [Effect, run]
    have hcases := initialized_cases directory d
    generalize initialized Disk.access directory d = behind at hcases ⊢
    rcases hcases with ⟨r, rfl, hsummary, hsome⟩ | ⟨r, d', place, rfl, hsummary, hbegins⟩ | ⟨e, rfl, hnone⟩
    · exact .inl ⟨hsummary, hsome, rfl⟩
    · exact .inr ⟨hsummary, place, hbegins⟩
    · exact ⟨hnone, rfl⟩

end Command

/-- A disk with a project in the root: one contract, and no source. -/
def Disk.unsourced : Disk where
  nodes := .ofList
    [("/contracts.json", .file (some ("\x7b\"contracts\": [\x7b\"name\": \"Words\", \"methods\": "
      ++ "[\x7b\"name\": \"hello\", \"parameters\": "
      ++ "[\x7b\"name\": \"l\", \"type\": \"Locale\", \"role\": \"locale\"\x7d]\x7d]\x7d]\x7d")))]
  current := []

/-- The project of this disk. -/
def Project.unsourced : Project := ⟨.default, "/", [⟨"Words", none, [⟨"hello", none, [⟨"l", "Locale", .locale⟩]⟩]⟩]⟩

theorem Project.load_unsourced :
    (Project.load Disk.access ⟨none, none, false⟩ Disk.unsourced).1 = .ok Project.unsourced := by
  decide +kernel

namespace Command

theorem compiles_unsourced : ∃ result, Compiles Disk.unsourced ⟨none, none, false⟩ result := by
  have hcompiled : (Project.unsourced.compiled Disk.unsourced).toBool = true := by decide +kernel
  cases hresult : Project.unsourced.compiled Disk.unsourced with
  | error e =>
    rw [hresult] at hcompiled
    cases hcompiled
  | ok result => exact ⟨result, _, Project.load_unsourced, hresult⟩

theorem writable_unsourced : Writable "out/words.rs" Disk.unsourced := by
  refine ⟨Disk.unsourced.set ["out"] .directory, ["out", "words.rs"], ?_, by decide +kernel, by decide +kernel⟩
  rfl

/-- A module is written in a directory that is made for it, and a configuration beside the contracts. -/
theorem run_effect_unsourced :
    (∃ r place result, ((generate (some "out/words") ⟨none, none, false⟩).run Disk.access Disk.unsourced).1 = .ok r ∧
      r.summary = writtenSummary "out/words.rs" result ∧
      Writes "out/words.rs" (moduleText result) ["out", ""] Disk.unsourced
        ((generate (some "out/words") ⟨none, none, false⟩).run Disk.access Disk.unsourced).2 place) ∧
    ∃ r place, ((init none).run Disk.access Disk.unsourced).1 = .ok r ∧ r.summary = .init ".loccatrc.json" false ∧
      Begins ".loccatrc.json" Disk.unsourced ((init none).run Disk.access Disk.unsourced).2 place := by
  constructor
  · obtain ⟨result, hcompiles⟩ := compiles_unsourced
    have hpath : modulePath "out/words" = "out/words.rs" := by decide +kernel
    have hdirectories : Path.directories "out/words.rs" = ["out", ""] := by decide +kernel
    have heffect := run_effect (generate (some "out/words") ⟨none, none, false⟩) Disk.unsourced
    generalize (generate (some "out/words") ⟨none, none, false⟩).run Disk.access Disk.unsourced = behind at heffect ⊢
    rw [Effect, GenerateEffect, hpath, hdirectories] at heffect
    have hwrites := (heffect.2 result hcompiles).2
    obtain ⟨e | r, d'⟩ := behind
    -- A place that can be written is not refused.
    · exact absurd writable_unsourced hwrites.1
    · obtain ⟨hsummary, place, hplace⟩ := hwrites
      exact ⟨r, place, result, rfl, hsummary, hplace⟩
  · have hplace : Disk.unsourced.place? (initPath none) ≠ none := by decide +kernel
    have hnothing : Disk.unsourced.nodeAt? (initPath none) = none := by decide +kernel
    have heffect := run_effect (init none) Disk.unsourced
    generalize (init none).run Disk.access Disk.unsourced = behind at heffect ⊢
    obtain ⟨e | r, d'⟩ := behind
    · exact absurd heffect.1 hplace
    · rw [Effect, InitEffect] at heffect
      rcases heffect with ⟨-, hsome, -⟩ | ⟨hsummary, place, hbegins⟩
      · exact absurd hnothing hsome
      · exact ⟨r, place, rfl, hsummary, hbegins⟩

end Command

end Phrasebook
