import LintGateway.Proofs.Analysis.Course
import LintGateway.Proofs.Command.Started
import LintGateway.Proofs.FileTree.ReadBack

/-!
# What the linter finds of what was prepared

A run names two files to the linter: the program that is started, and the configuration, whose path
stands among the arguments. Both names are made on the host and followed by the linter, which runs
in the directory of the run. They lead to what the host prepared where they start at a root, and
where the directory of the run is the one of the host (`run_reaches`). In any other case the linter
is looked for below the directory of the run as seen from there, and so is the configuration.
-/

set_option autoImplicit false

namespace LintGateway.Analysis

open CommandRunner (Executes directoryPlace)
open FileTree (IsPlace)

/-- The path at which the host sees the program that a run starts. -/
def programPath (a : Analysis) (head : String) : Path := a.directory.join (Path.ofText head)

/-- The argument that tells the linter where its configuration is. -/
def configArgument (a : Analysis) : String :=
  CommandTemplate.fill a.template.configPath a.directory

variable {a : Analysis} {host : Host} {runner : CommandRunner} {tree stored : FileTree}
  {registry : Rule.Registry} {content : ByteArray} {here : List String} {head : String}
  {rest : List String} {mode : Nat}

/-- The configuration goes where its argument says. -/
theorem configPath_eq (a : Analysis) : a.configPath = Path.ofText a.configArgument := rfl

/-- Where the template has the path among its arguments, the command has it filled in. -/
theorem configArgument_mem_command (h : a.template.configPath ∈ a.template.arguments) :
    a.configArgument ∈ a.command := List.mem_map_of_mem h

/-- A run with a configuration on the disk wrote that and started the linter, in this order. -/
theorem effects_of_stored {machine : Machine}
    (h : Stored a machine tree registry content stored) :
    (a.run machine tree).value.effects =
      [.write a.configPath content, .start a.command a.directory] := by
  rcases hruns : (machine.runs stored a.command a.directory).value with ⟨ended, outcome⟩
  cases outcome with
  | error e => rw [run_of_command_error h hruns]
  | ok result =>
    have hlinted : Linted a machine tree registry content ended result := ⟨stored, h, hruns⟩
    cases hreport : (findings a.settings result).value with
    | error e => rw [run_of_report_error hlinted hreport]
    | ok found => rw [run_of_found hlinted hreport]

/-- A run in which the linter came to a result has executed a file. -/
theorem exists_executes_of_linted {ended : FileTree} {result : ProcessResult}
    (hstored : Stored a (.ofHost host runner) tree registry content stored)
    (h : Linted a (.ofHost host runner) tree registry content ended result) :
    ∃ place, Executes runner { host with tree := stored } a.command a.directory place := by
  obtain ⟨other, hother, hruns⟩ := h
  have hsame : other = stored := by
    have hstore := hother.store
    rw [hstored.store] at hstore
    exact (Prod.mk.inj hstore).1.symm
  rw [hsame] at hruns
  exact CommandRunner.exists_executes_of_run (Prod.mk.inj hruns).2

/-- The configuration is on the disk in the file to which its path leads. -/
theorem exists_config_of_stored (hstored : Stored a (.ofHost host runner) tree registry content stored)
    (hcurrent : IsPlace tree tree.here) :
    ∃ place mode, stored.root.get? place = some (.file content mode) ∧
      stored.locate a.configPath false = .ok place := by
  have hstore : LinterConfig.store .reliable tree a.configPath content = (stored, .ok ()) :=
    hstored.store
  unfold LinterConfig.store at hstore
  split at hstore
  · cases hstore
  · rename_i made hmade
    have hstart : IsPlace tree (tree.start a.configPath) := by
      unfold FileTree.start
      split
      · exact .top
      · exact hcurrent
    exact (FileTree.reliable_puts hstart hmade hstore).2

/-- The argument with the path of the configuration leads the linter to the file in which it is. -/
theorem named_configArgument {place : List String}
    (hhere : directoryPlace stored a.directory = .ok here)
    (hplace : stored.root.get? place = some (.file content mode))
    (hlocate : stored.locate a.configPath false = .ok place)
    (hpath : a.configPath.isAbsolute = true ∨ here = stored.here)
    (hlast : (Path.ofRawText a.configArgument).segments.getLast? ≠ some ".")
    (hlength : (Path.ofRawText a.configArgument).toText.utf8ByteSize ≤ FileTree.maxPathLength) :
    stored.named here a.configArgument = .ok place := by
  have hne : a.configArgument ≠ "" := by
    intro hempty
    rw [configPath_eq, hempty] at hlocate hpath
    rcases hpath with habsolute | rfl
    · cases habsolute
    · -- the empty path leads to the current directory, which is no file
      obtain ⟨entries, hentries⟩ := CommandRunner.exists_of_directoryPlace hhere
      have hsame : stored.here = place := by
        have hself := (FileTree.locate_eq_ok_iff.mp hlocate).2.eq
        exact Except.ok.inj hself
      rw [hsame, hplace] at hentries
      cases hentries
  have hraw := FileTree.locate_ofRawText hne hlast hlength hlocate
  rcases hpath with habsolute | rfl
  · rw [configPath_eq, Path.isAbsolute_ofText] at habsolute
    rw [FileTree.named, FileTree.locate_seenFrom_of_isAbsolute habsolute, hraw]
  · exact hraw

/-- A run whose configuration is on the disk, for a linter that is given by a path and told where the
configuration is. The configuration was written, and then the linter was started; when it came to a
result, a file was executed.

The path of the program leads to the file that is executed as the host sees it when the path or the
directory of the run starts at a root, or when the directory of the run is the one of the host and
the path does not lose its slash. Otherwise it is followed from the directory of the run although it
goes through that directory already, and a path that has lost its slash is searched for.

The argument with the path of the configuration leads the linter to the file that was written when
it starts at a root, or when the directory of the run is the one of the host, unless it ends in a
dot or is too long to be looked up. -/
theorem run_reaches (hstored : Stored a (.ofHost host runner) tree registry content stored)
    (hcurrent : IsPlace tree tree.here) (hplain : a.directory.IsPlain)
    (hhere : directoryPlace stored a.directory = .ok here) (hcommand : a.command = head :: rest)
    (hslash : '/' ∈ head.toList) (hargument : a.template.configPath ∈ a.template.arguments) :
    (a.run (.ofHost host runner) tree).value.effects =
        [.write a.configPath content, .start a.command a.directory] ∧
    (∀ ended result, Linted a (.ofHost host runner) tree registry content ended result →
      ∃ place, Executes runner { host with tree := stored } a.command a.directory place) ∧
    (∀ place, Executes runner { host with tree := stored } a.command a.directory place →
      ((Path.ofText head).isAbsolute = true ∨ a.directory.isAbsolute = true ∨
          here = stored.here ∧ 2 ≤ (a.programPath head).segments.length →
        stored.locate (a.programPath head) false = .ok place) ∧
      (2 ≤ (a.programPath head).segments.length →
        (stored.seenFrom here).locate (a.programPath head) false = .ok place) ∧
      ((a.programPath head).isAbsolute = false → (a.programPath head).segments.length < 2 →
        ∃ searched ∈ Text.split ':'
            ((runner.searchList? { host with tree := stored }).getD Command.standardSearch),
          stored.named here (Host.fileIn searched (a.programPath head).toText) = .ok place)) ∧
    a.configArgument ∈ a.command ∧
    ∃ place mode, stored.root.get? place = some (.file content mode) ∧
      stored.locate a.configPath false = .ok place ∧
      (a.configPath.isAbsolute = true ∨ here = stored.here →
        (Path.ofRawText a.configArgument).segments.getLast? ≠ some "." →
        (Path.ofRawText a.configArgument).toText.utf8ByteSize ≤ FileTree.maxPathLength →
        stored.named here a.configArgument = .ok place) := by
  obtain ⟨place, mode, hplace, hlocate⟩ := exists_config_of_stored hstored hcurrent
  refine ⟨effects_of_stored hstored, fun ended result => exists_executes_of_linted hstored, ?_,
    configArgument_mem_command hargument, place, mode, hplace, hlocate,
    fun hpath hlast hlength => named_configArgument hhere hplace hlocate hpath hlast hlength⟩
  intro executed hexecutes
  rw [hcommand] at hexecutes
  -- the host of the child under a name, so that nothing below is unfolded into its fields
  obtain ⟨child, hchild, rfl⟩ : ∃ child : Host, child = { host with tree := stored } ∧
      child.tree = stored := ⟨_, rfl, rfl⟩
  rw [← hchild] at hexecutes ⊢
  refine ⟨fun hpath => ?_, fun hlength => ?_, fun hrelative hshort => ?_⟩
  · refine hexecutes.locate_eq hslash hplain hhere ?_
    rw [Path.isAbsolute_join, Bool.or_eq_true]
    rcases hpath with hhead | hdirectory | hsame
    · exact Or.inl (Or.inr hhead)
    · exact Or.inl (Or.inl hdirectory)
    · exact Or.inr hsame
  · exact hexecutes.locate_seenFrom hslash hplain hhere (Or.inr hlength)
  · exact hexecutes.exists_searched hslash hplain hhere hrelative hshort

/-! ## A directory that holds one of its own name -/

/-- A project with a linter, and with a directory of the name of the project in it that has another
linter and a configuration. -/
def twinTree : FileTree :=
  let linter : Node := .file .empty 0o755
  let twin : Node := .directory [("lint", linter), ("lint.json", .file .empty 0o644)]
  ⟨.directory [("w", .directory [("job", .directory [("lint", linter), ("job", twin)])])], ["w"]⟩

/-- A host with these files, on which each of the two linters is a program. -/
def twinHost : Host :=
  ⟨twinTree, [(["w", "job", "lint"], .cat), (["w", "job", "job", "lint"], .sleep)], []⟩

/-- Commands are run in the environment of the host and without a time limit. -/
def patientRunner : CommandRunner := ⟨none, none⟩

/-- A run of the linter of a project, with a configuration that is put beside it. -/
def twinRun (directory : Path) : Analysis where
  rules := .descriptors [sampleRule]
  template := ⟨["./lint", "\x7bdeploy_dir\x7d/lint.json"], "\x7bdeploy_dir\x7d/lint.json"⟩
  directory := directory
  tracked _ := none
  settings := .standard

/-- The configuration of that run. -/
def twinContent : ByteArray := "\x7b\"rules\":\x7b\"block-no-empty\":true\x7d\x7d\n".toUTF8

/-- The files of the host with the configuration at a path. -/
def twinStored (p : Path) : FileTree := (LinterConfig.store .reliable twinTree p twinContent).1

/-- The registry of the run. -/
def twinRegistry : Rule.Registry := ⟨[sampleRule], by simp⟩

/-- The run of the example has a configuration in any directory. -/
theorem configured_twinRun (directory : Path) :
    Configured (twinRun directory) twinRegistry twinContent := by
  refine ⟨rfl, ?_⟩
  decide +kernel

/-- The configuration of the example is stored wherever the disk takes it. -/
theorem stored_twinRun (directory : Path)
    (h : (LinterConfig.store .reliable twinTree (twinRun directory).configPath twinContent).2 =
      .ok ()) :
    Stored (twinRun directory) (.ofHost twinHost patientRunner) twinTree twinRegistry twinContent
      (twinStored (twinRun directory).configPath) := by
  have hstore : LinterConfig.store .reliable twinTree (twinRun directory).configPath twinContent =
      (twinStored (twinRun directory).configPath, .ok ()) := by
    unfold twinStored
    generalize LinterConfig.store .reliable twinTree (twinRun directory).configPath twinContent =
      outcome at h ⊢
    exact Prod.ext rfl h
  exact ⟨configured_twinRun directory, hstore⟩

/-- In a project that is named from the root, the linter of the project is the one that is executed,
and it is told where its configuration is. -/
theorem run_reaches_twinRun :
    ∃ stored, Stored (twinRun ⟨.root, ["w", "job"]⟩) (.ofHost twinHost patientRunner) twinTree
        twinRegistry twinContent stored ∧
      (∀ place, Executes patientRunner { twinHost with tree := stored }
          (twinRun ⟨.root, ["w", "job"]⟩).command ⟨.root, ["w", "job"]⟩ place →
        place = ["w", "job", "lint"]) ∧
      ∃ place mode, stored.root.get? place = some (.file twinContent mode) ∧
        stored.named ["w", "job"] "/w/job/lint.json" = .ok place := by
  have hstored := stored_twinRun ⟨.root, ["w", "job"]⟩ rfl
  have hcurrent : IsPlace twinTree twinTree.here := .entry .top rfl
  have hplain : Path.IsPlain ⟨.root, ["w", "job"]⟩ := by simp [Path.IsPlain]
  obtain ⟨-, -, hexecuted, -, place, mode, hplace, -, hnamed⟩ :=
    run_reaches hstored hcurrent hplain rfl rfl (by decide) (by decide)
  refine ⟨_, hstored, fun executed hexecutes => ?_, place, mode, hplace,
    hnamed (Or.inl rfl) (by decide) (by decide)⟩
  have hlocate := (hexecuted executed hexecutes).1 (Or.inr (Or.inl rfl))
  exact (Except.ok.inj hlocate).symm

/-- In the same project, named from the directory of the host, the other linter is executed, and it
is told where the other configuration is. -/
theorem relative_directory_misleads :
    ∃ stored, Stored (twinRun ⟨.here, ["job"]⟩) (.ofHost twinHost patientRunner) twinTree
        twinRegistry twinContent stored ∧
      stored.locate ((twinRun ⟨.here, ["job"]⟩).programPath "./lint") false =
        .ok ["w", "job", "lint"] ∧
      Executes patientRunner { twinHost with tree := stored }
        (twinRun ⟨.here, ["job"]⟩).command ⟨.here, ["job"]⟩ ["w", "job", "job", "lint"] ∧
      stored.locate (twinRun ⟨.here, ["job"]⟩).configPath false = .ok ["w", "job", "lint.json"] ∧
      stored.named ["w", "job"] (twinRun ⟨.here, ["job"]⟩).configArgument =
        .ok ["w", "job", "job", "lint.json"] := by
  have hstored := stored_twinRun ⟨.here, ["job"]⟩ rfl
  have hnames : CommandRunner.candidates (patientRunner.environmentOn twinHost) "job/lint" =
      [] ++ "job/lint" :: [] := rfl
  exact ⟨_, hstored, rfl, .intro rfl rfl hnames (by simp) rfl rfl, rfl, rfl⟩

end LintGateway.Analysis
