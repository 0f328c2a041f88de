import LintGateway.Command.Runner
import LintGateway.Command.Template
import LintGateway.ConfigError
import LintGateway.LinterConfig
import LintGateway.Reconcile
import LintGateway.Report.Reader
import LintGateway.Settings.Basic

/-!
# A run of the linter

A run writes the configuration, starts the linter, reads its report, reconciles the findings and
hands the issues on. It is put together from steps: each is taken only when the one before it
succeeded, and the first failure is that of the whole run. What a run does to the world around it is
kept as a list of effects in their order. An effect is listed when it is asked for, so the last one
may be that of a step that failed.
-/

set_option autoImplicit false

namespace LintGateway

open Report

/-- Something that a run does to the world around it: it puts content at a path, in directories that
are made for it, starts a command, or hands an issue on. -/
inductive Effect where
  | write (p : Path) (content : ByteArray)
  | start (command : List String) (directory : Path)
  | save (issue : NormalizedIssue)

/-- Why a run fails. -/
inductive RunFailure where
  | config (error : ConfigError)
  | unwritable (obstacle : Json.Obstacle)
  | file (error : FileError)
  | refused (refusal : Refusal)
  | endlessWait
  | launch (error : LaunchError)
  | execution (error : ExecutionError)
  | report (error : FormatError)
  | unknownRule (error : Rule.Unknown)
  | invalidIssue (faults : List Schema.Fault)

/-- What a step of a run leaves: the files, what it did, and its result. -/
structure RunRecord (α : Type) where
  tree : FileTree
  effects : List Effect
  result : Except RunFailure α

/-- A step of a run: what it leaves when it starts from given files, and the lines it says. -/
def RunStep (α : Type) : Type := FileTree → Logged (RunRecord α)

namespace RunStep

variable {α β : Type}

/-- A step that comes to a result and leaves the world as it is. -/
def settle (outcome : Logged (Except RunFailure α)) : RunStep α := fun tree => do
  return ⟨tree, [], ← outcome⟩

/-- Goes on from a step that succeeded, with the files that it left. -/
def andThen (step : RunStep α) (next : α → RunStep β) : RunStep β := fun tree => do
  let first ← step tree
  match first.result with
  | .error e => return ⟨first.tree, first.effects, .error e⟩
  | .ok a =>
    let second ← next a first.tree
    return ⟨second.tree, first.effects ++ second.effects, second.result⟩

instance : Monad RunStep where
  pure a := settle (pure (.ok a))
  bind := andThen

end RunStep

/-- The rules of a run: a registry, or descriptors to make one from. -/
inductive ActiveRules where
  | registry (r : Rule.Registry)
  | descriptors (ds : List Rule.Descriptor)

/-- What a run asks of the machine it is on: to change files, and to run a command in a directory.
The command is given the files as they are then, and may change them. -/
structure Machine where
  disk : Disk
  runs : FileTree → List String → Path → Logged (FileTree × Except CommandError ProcessResult)

/-- A host as the machine of a run: nothing but the tree keeps its disk from a change, and commands
are run on the host with the files as they are then. -/
def Machine.ofHost (host : Host) (runner : CommandRunner) : Machine where
  disk := .reliable
  runs tree command directory := do
    return (tree, ← runner.run { host with tree := tree } command directory)

/-- What a run is about. -/
structure Analysis where
  rules : ActiveRules
  template : CommandTemplate
  directory : Path
  tracked : FileLookup
  settings : Settings

namespace Analysis

/-- The registry of the rules of a run. -/
def registry : ActiveRules → Except RunFailure Rule.Registry
  | .registry r => .ok r
  | .descriptors ds => (Rule.Registry.ofDescriptors ds).mapError .config

/-- The failure to write a configuration as that of a run. -/
def ofWriteError : LinterConfig.WriteError → RunFailure
  | .unwritable obstacle => .unwritable obstacle
  | .file e => .file e

/-- The failure of a command as that of a run. -/
def ofCommandError : CommandError → RunFailure
  | .refused r => .refused r
  | .endlessWait => .endlessWait
  | .launch e => .launch e
  | .execution e => .execution e

/-- The failure to reconcile a report as that of a run. -/
def ofReconcileFailure : Reconcile.Failure → RunFailure
  | .unknownRule u => .unknownRule u
  | .invalidIssue faults => .invalidIssue faults

/-- A line of the log of runs. -/
def line (level : LogLevel) (text : String) : LogLine :=
  { level := level, channel := .run, text := text }

/-- The failure of a command that ended with a failure status. -/
def failedCommand (result : ProcessResult) : ExecutionError :=
  { command := result.command, status := result.status, stderr := some result.stderr }

/-- The failure of a command that ended with a failure status and left no readable report. -/
def failedReport (result : ProcessResult) (e : FormatError) : ExecutionError :=
  { failedCommand result with
    detail := some ("no usable report: " ++ e.message)
    cause := some (.report e) }

/-- The findings in the output of a command. With a failure status a report counts only when it can
be read and the settings accept such a status. -/
def findings (settings : Settings) (result : ProcessResult) :
    Logged (Except RunFailure (List FileFindings)) :=
  match Report.ofBytes result.stdout with
  | .error e =>
    pure (.error (if result.isOk then .report e else .execution (failedReport result e)))
  | .ok found =>
    if result.isOk then pure (.ok found)
    else if settings.acceptNonzeroExit then do
      Logged.say (line .debug ("linter exited with status " ++ toString result.status ++
        " but produced a valid report"))
      return .ok found
    else pure (.error (.execution (failedCommand result)))

/-- The issues of the findings of a run. -/
def issues (a : Analysis) (registry : Rule.Registry) (found : List FileFindings) :
    Logged (Except RunFailure (List NormalizedIssue)) := do
  match ← Reconcile.issues registry a.tracked found with
  | .error e => return .error (ofReconcileFailure e)
  | .ok issues =>
    Logged.say (line .info ("stylelint reported " ++ toString issues.length ++
      " issue(s) on tracked files"))
    return .ok issues

/-- Where the linter looks for its configuration. -/
def configPath (a : Analysis) : Path := a.template.configPathIn a.directory

/-- How the linter is called. -/
def command (a : Analysis) : List String := a.template.argumentsIn a.directory

/-- The step that writes the configuration. One that has no text is not even tried to be written. -/
def writeConfig (a : Analysis) (machine : Machine) (config : LinterConfig) : RunStep Unit :=
  fun tree => do
    let written ← config.write machine.disk tree a.configPath
    let effects := config.serialize?.toList.map (Effect.write a.configPath)
    return ⟨written.1, effects, written.2.mapError ofWriteError⟩

/-- The step that starts the linter and waits for its end. -/
def startLinter (a : Analysis) (machine : Machine) : RunStep ProcessResult := fun tree => do
  let ended ← machine.runs tree a.command a.directory
  return ⟨ended.1, [.start a.command a.directory], ended.2.mapError ofCommandError⟩

/-- Writes the configuration, runs the linter and gives the issues in its report. -/
def run (a : Analysis) (machine : Machine) : RunStep (List NormalizedIssue) := do
  let registry ← RunStep.settle (pure (registry a.rules))
  a.writeConfig machine (LinterConfig.ofRegistry registry)
  let result ← a.startLinter machine
  let found ← RunStep.settle (findings a.settings result)
  RunStep.settle (a.issues registry found)

/-- The step that hands one issue on. -/
def save (issue : NormalizedIssue) : RunStep Unit := fun tree =>
  pure ⟨tree, [.save issue], .ok ()⟩

/-- Hands issues on, one after the other. -/
def saveAll : List NormalizedIssue → RunStep Unit
  | [] => pure ()
  | issue :: issues => do
    save issue
    saveAll issues

/-- Hands issues on and counts them. -/
def emit (issues : List NormalizedIssue) : RunStep Nat := do
  saveAll issues
  return issues.length

/-- Runs the linter and hands the issues on when all went well; the result is their number. -/
def analyze (a : Analysis) (machine : Machine) : RunStep Nat := do
  let issues ← a.run machine
  emit issues

end Analysis

end LintGateway
