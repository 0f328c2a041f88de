import LintGateway.Analysis

/-!
# The courses of a run

A run is five steps in a row, and there are as many ways for it to go as there are steps to fail in,
and one more when none fails. This file follows each of them to its end: what the run leaves is
computed step by step from two laws of steps, one for a step that fails (`value_bind_error`) and one
for a step that succeeds (`value_bind_ok`). `RunCourse` lists the ways, and `run_course` says that
there is no other.
-/

set_option autoImplicit false

namespace LintGateway

namespace RunStep

variable {α β : Type} {step : RunStep α} {tree left : FileTree} {effects : List Effect}

/-- After a step that fails nothing more is done. -/
theorem value_bind_error (next : α → RunStep β) {e : RunFailure}
    (h : (step tree).value = ⟨left, effects, .error e⟩) :
    ((step >>= next) tree).value = ⟨left, effects, .error e⟩ := by
  show (andThen step next tree).value = _
  unfold andThen
  rw [Logged.value_bind, h]
  rfl

/-- After a step that succeeds the next one starts from what it left. -/
theorem value_bind_ok {next : α → RunStep β} {a : α} {last : FileTree} {later : List Effect}
    {result : Except RunFailure β} (h : (step tree).value = ⟨left, effects, .ok a⟩)
    (hnext : (next a left).value = ⟨last, later, result⟩) :
    ((step >>= next) tree).value = ⟨last, effects ++ later, result⟩ := by
  show (andThen step next tree).value = _
  unfold andThen
  rw [Logged.value_bind, h]
  show (next a left >>= fun second =>
    pure ⟨second.tree, effects ++ second.effects, second.result⟩ : Logged (RunRecord β)).value = _
  rw [Logged.value_bind, hnext]
  rfl

/-- A settled step leaves its outcome and nothing else. -/
theorem value_settle (outcome : Logged (Except RunFailure α)) (tree : FileTree) :
    (settle outcome tree).value = ⟨tree, [], outcome.value⟩ := rfl

end RunStep

namespace Analysis

open Report

variable {a : Analysis} {machine : Machine} {tree : FileTree}

/-! ## How far a run has come -/

/-- The rules of a run make a registry, and the configuration for them has a text. -/
structure Configured (a : Analysis) (registry : Rule.Registry) (content : ByteArray) : Prop where
  rules : Analysis.registry a.rules = .ok registry
  text : (LinterConfig.ofRegistry registry).serialize? = some content

/-- A configured run has the registry of its rules. -/
theorem Configured.registry_eq {registry other : Rule.Registry} {content : ByteArray}
    (h : Configured a other content) (hrules : Analysis.registry a.rules = .ok registry) :
    other = registry := by
  have hother := h.rules
  rw [hrules] at hother
  exact (Except.ok.inj hother).symm

/-- The configuration is on the disk. -/
structure Stored (a : Analysis) (machine : Machine) (tree : FileTree) (registry : Rule.Registry)
    (content : ByteArray) (stored : FileTree) : Prop extends Configured a registry content where
  store : LinterConfig.store machine.disk tree a.configPath content = (stored, .ok ())

/-- The linter was started after that and gave a result. -/
def Linted (a : Analysis) (machine : Machine) (tree : FileTree) (registry : Rule.Registry)
    (content : ByteArray) (ended : FileTree) (result : ProcessResult) : Prop :=
  ∃ stored, Stored a machine tree registry content stored ∧
    (machine.runs stored a.command a.directory).value = (ended, .ok result)

/-- A run that was linted has a configuration. -/
theorem Linted.configured {registry : Rule.Registry} {content : ByteArray} {ended : FileTree}
    {result : ProcessResult} (h : Linted a machine tree registry content ended result) :
    Configured a registry content := by
  obtain ⟨stored, hstored, -⟩ := h
  exact hstored.toConfigured

/-! ## The steps -/

/-- A configuration without a text leaves everything as it was, and the step fails with what is in
the way. -/
theorem writeConfig_unwritable {config : LinterConfig} {obstacle : Json.Obstacle}
    (h : config.serialize = .error obstacle) :
    (a.writeConfig machine config tree).value = ⟨tree, [], .error (.unwritable obstacle)⟩ := by
  unfold writeConfig LinterConfig.write LinterConfig.serialize?
  simp only [h]
  rfl

/-- A configuration that cannot be stored is tried once, and the step fails with the error of the
disk. -/
theorem writeConfig_store_error {config : LinterConfig} {content : ByteArray} {stored : FileTree}
    {e : FileError} (h : config.serialize? = some content)
    (hstore : LinterConfig.store machine.disk tree a.configPath content = (stored, .error e)) :
    (a.writeConfig machine config tree).value =
      ⟨stored, [.write a.configPath content], .error (.file e)⟩ := by
  unfold writeConfig LinterConfig.write
  simp only [h, LinterConfig.serialize?_eq_some_iff.mp h, hstore]
  rfl

/-- A configuration that is stored is one effect and no failure. -/
theorem writeConfig_store_ok {config : LinterConfig} {content : ByteArray} {stored : FileTree}
    (h : config.serialize? = some content)
    (hstore : LinterConfig.store machine.disk tree a.configPath content = (stored, .ok ())) :
    (a.writeConfig machine config tree).value =
      ⟨stored, [.write a.configPath content], .ok ()⟩ := by
  unfold writeConfig LinterConfig.write
  simp only [h, LinterConfig.serialize?_eq_some_iff.mp h, hstore]
  rfl

/-- Starting the linter is one effect, whatever comes of it. -/
theorem startLinter_value {ended : FileTree} {outcome : Except CommandError ProcessResult}
    (h : (machine.runs tree a.command a.directory).value = (ended, outcome)) :
    (a.startLinter machine tree).value =
      ⟨ended, [.start a.command a.directory], outcome.mapError ofCommandError⟩ := by
  unfold startLinter
  rw [Logged.value_bind, h]
  rfl

/-- The issues of a run are those of the reconciliation. -/
theorem issues_value (registry : Rule.Registry) (found : List FileFindings) :
    (a.issues registry found).value =
      (Reconcile.issues registry a.tracked found).value.mapError ofReconcileFailure := by
  unfold issues
  rw [Logged.value_bind]
  cases (Reconcile.issues registry a.tracked found).value <;> rfl

/-! ## The ways in which a run goes -/

/-- Rules that are rejected end a run before it does anything. -/
theorem run_of_rejected {e : RunFailure} (h : Analysis.registry a.rules = .error e) :
    (a.run machine tree).value = ⟨tree, [], .error e⟩ := by
  have hrules : (RunStep.settle (pure (Analysis.registry a.rules)) tree).value =
      ⟨tree, [], .error e⟩ := by
    rw [RunStep.value_settle, h]
    rfl
  exact RunStep.value_bind_error _ hrules

/-- A run whose rules are accepted goes on with writing the configuration. -/
theorem run_of_accepted {registry : Rule.Registry} {record : RunRecord (List NormalizedIssue)}
    (h : Analysis.registry a.rules = .ok registry)
    (hrest : ((do
      a.writeConfig machine (LinterConfig.ofRegistry registry)
      let result ← a.startLinter machine
      let found ← RunStep.settle (findings a.settings result)
      RunStep.settle (a.issues registry found) : RunStep (List NormalizedIssue)) tree).value =
        record) :
    (a.run machine tree).value = record := by
  have hrules : (RunStep.settle (pure (Analysis.registry a.rules)) tree).value =
      ⟨tree, [], .ok registry⟩ := by
    rw [RunStep.value_settle, h]
    rfl
  unfold run
  exact RunStep.value_bind_ok hrules hrest

/-- A configuration without a text ends a run before it does anything. -/
theorem run_of_unwritable {registry : Rule.Registry} {obstacle : Json.Obstacle}
    (h : Analysis.registry a.rules = .ok registry)
    (htext : (LinterConfig.ofRegistry registry).serialize = .error obstacle) :
    (a.run machine tree).value = ⟨tree, [], .error (.unwritable obstacle)⟩ :=
  run_of_accepted h (RunStep.value_bind_error _ (writeConfig_unwritable htext))

/-- A configuration that cannot be stored ends a run. -/
theorem run_of_store_error {registry : Rule.Registry} {content : ByteArray} {stored : FileTree}
    {e : FileError} (h : Configured a registry content)
    (hstore : LinterConfig.store machine.disk tree a.configPath content = (stored, .error e)) :
    (a.run machine tree).value =
      ⟨stored, [.write a.configPath content], .error (.file e)⟩ :=
  run_of_accepted h.rules (RunStep.value_bind_error _ (writeConfig_store_error h.text hstore))

/-- A command that gives no result ends a run after it was started. -/
theorem run_of_command_error {registry : Rule.Registry} {content : ByteArray}
    {stored ended : FileTree} {e : CommandError} (h : Stored a machine tree registry content stored)
    (hruns : (machine.runs stored a.command a.directory).value = (ended, .error e)) :
    (a.run machine tree).value =
      ⟨ended, [.write a.configPath content, .start a.command a.directory],
        .error (ofCommandError e)⟩ := by
  refine run_of_accepted h.rules (RunStep.value_bind_ok (writeConfig_store_ok h.text h.store) ?_)
  exact RunStep.value_bind_error _ (startLinter_value hruns)

/-- Once the linter has given a result, the run goes on with what it finds in the report. -/
theorem run_of_linted {registry : Rule.Registry} {content : ByteArray} {ended : FileTree}
    {result : ProcessResult} {outcome : Except RunFailure (List NormalizedIssue)}
    (h : Linted a machine tree registry content ended result)
    (hrest : ((RunStep.settle (findings a.settings result) >>= fun found =>
      RunStep.settle (a.issues registry found)) ended).value = ⟨ended, [], outcome⟩) :
    (a.run machine tree).value =
      ⟨ended, [.write a.configPath content, .start a.command a.directory], outcome⟩ := by
  obtain ⟨stored, hstored, hruns⟩ := h
  refine run_of_accepted hstored.rules
    (RunStep.value_bind_ok (writeConfig_store_ok hstored.text hstored.store) ?_)
  exact RunStep.value_bind_ok (startLinter_value hruns) hrest

/-- A report that cannot be used ends a run after the linter. -/
theorem run_of_report_error {registry : Rule.Registry} {content : ByteArray} {ended : FileTree}
    {result : ProcessResult} {e : RunFailure}
    (h : Linted a machine tree registry content ended result)
    (hreport : (findings a.settings result).value = .error e) :
    (a.run machine tree).value =
      ⟨ended, [.write a.configPath content, .start a.command a.directory], .error e⟩ := by
  refine run_of_linted h (RunStep.value_bind_error _ ?_)
  rw [RunStep.value_settle, hreport]

/-- A run whose report counts ends with what reconciling it gives. -/
theorem run_of_found {registry : Rule.Registry} {content : ByteArray} {ended : FileTree}
    {result : ProcessResult} {found : List FileFindings}
    (h : Linted a machine tree registry content ended result)
    (hreport : (findings a.settings result).value = .ok found) :
    (a.run machine tree).value =
      ⟨ended, [.write a.configPath content, .start a.command a.directory],
        (Reconcile.issues registry a.tracked found).value.mapError ofReconcileFailure⟩ := by
  have hread : (RunStep.settle (findings a.settings result) ended).value =
      ⟨ended, [], .ok found⟩ := by
    rw [RunStep.value_settle, hreport]
  refine run_of_linted h (RunStep.value_bind_ok hread ?_)
  rw [RunStep.value_settle, issues_value]

/-- The ways in which a run goes, each with what it leaves. -/
inductive RunCourse (a : Analysis) (machine : Machine) (tree : FileTree) :
    RunRecord (List NormalizedIssue) → Prop where
  | rejected {e : RunFailure} (rules : Analysis.registry a.rules = .error e) :
      RunCourse a machine tree ⟨tree, [], .error e⟩
  | unwritable {registry : Rule.Registry} {obstacle : Json.Obstacle}
      (rules : Analysis.registry a.rules = .ok registry)
      (text : (LinterConfig.ofRegistry registry).serialize = .error obstacle) :
      RunCourse a machine tree ⟨tree, [], .error (.unwritable obstacle)⟩
  | notStored {registry : Rule.Registry} {content : ByteArray} {stored : FileTree} {e : FileError}
      (configured : Configured a registry content)
      (store : LinterConfig.store machine.disk tree a.configPath content = (stored, .error e)) :
      RunCourse a machine tree ⟨stored, [.write a.configPath content], .error (.file e)⟩
  | notRun {registry : Rule.Registry} {content : ByteArray} {stored ended : FileTree}
      {e : CommandError} (configuration : Stored a machine tree registry content stored)
      (runs : (machine.runs stored a.command a.directory).value = (ended, .error e)) :
      RunCourse a machine tree
        ⟨ended, [.write a.configPath content, .start a.command a.directory],
          .error (ofCommandError e)⟩
  | notRead {registry : Rule.Registry} {content : ByteArray} {ended : FileTree}
      {result : ProcessResult} {e : RunFailure}
      (linted : Linted a machine tree registry content ended result)
      (report : (findings a.settings result).value = .error e) :
      RunCourse a machine tree
        ⟨ended, [.write a.configPath content, .start a.command a.directory], .error e⟩
  | notReconciled {registry : Rule.Registry} {content : ByteArray} {ended : FileTree}
      {result : ProcessResult} {found : List FileFindings} {e : Reconcile.Failure}
      (linted : Linted a machine tree registry content ended result)
      (report : (findings a.settings result).value = .ok found)
      (reconciled : (Reconcile.issues registry a.tracked found).value = .error e) :
      RunCourse a machine tree
        ⟨ended, [.write a.configPath content, .start a.command a.directory],
          .error (ofReconcileFailure e)⟩
  | done {registry : Rule.Registry} {content : ByteArray} {ended : FileTree}
      {result : ProcessResult} {found : List FileFindings} {issues : List NormalizedIssue}
      (linted : Linted a machine tree registry content ended result)
      (report : (findings a.settings result).value = .ok found)
      (reconciled : (Reconcile.issues registry a.tracked found).value = .ok issues) :
      RunCourse a machine tree
        ⟨ended, [.write a.configPath content, .start a.command a.directory], .ok issues⟩

/-- A run that comes to a result of the linter goes on in one of the last three ways. -/
theorem run_course_of_linted {registry : Rule.Registry} {content : ByteArray} {ended : FileTree}
    {result : ProcessResult} (h : Linted a machine tree registry content ended result) :
    RunCourse a machine tree (a.run machine tree).value := by
  cases hreport : (findings a.settings result).value with
  | error e =>
    rw [run_of_report_error h hreport]
    exact .notRead h hreport
  | ok found =>
    rw [run_of_found h hreport]
    cases hissues : (Reconcile.issues registry a.tracked found).value with
    | error e => exact .notReconciled h hreport hissues
    | ok issues => exact .done h hreport hissues

/-- Every run goes in one of these ways. -/
theorem run_course (a : Analysis) (machine : Machine) (tree : FileTree) :
    RunCourse a machine tree (a.run machine tree).value := by
  cases hrules : Analysis.registry a.rules with
  | error e =>
    rw [run_of_rejected hrules]
    exact .rejected hrules
  | ok registry =>
    cases htext : (LinterConfig.ofRegistry registry).serialize with
    | error obstacle =>
      rw [run_of_unwritable hrules htext]
      exact .unwritable hrules htext
    | ok content =>
      have hconfigured : Configured a registry content :=
        ⟨hrules, LinterConfig.serialize?_eq_some_iff.mpr htext⟩
      rcases hstore : LinterConfig.store machine.disk tree a.configPath content with
        ⟨stored, outcome⟩
      cases outcome with
      | error e =>
        rw [run_of_store_error hconfigured hstore]
        exact .notStored hconfigured hstore
      | ok _ =>
        have hstored : Stored a machine tree registry content stored := ⟨hconfigured, hstore⟩
        rcases hruns : (machine.runs stored a.command a.directory).value with ⟨ended, outcome⟩
        cases outcome with
        | error e =>
          rw [run_of_command_error hstored hruns]
          exact .notRun hstored hruns
        | ok result => exact run_course_of_linted ⟨stored, hstored, hruns⟩

/-! ## A run that can be followed by hand -/

/-- The tree without files. -/
def bareTree : FileTree := { root := .emptyDirectory, here := [] }

/-- A machine with a reliable disk, on which every command ends with the same result. -/
def machineEnding (result : ProcessResult) : Machine :=
  { disk := .reliable, runs := fun tree _ _ => pure (tree, .ok result) }

/-- The rule of the sample run. -/
def sampleRule : Rule.Descriptor :=
  { externalId := "block-no-empty", key := ⟨"css", "S4658"⟩, options := [], severity := .standard }

/-- A run with one rule and one tracked file. -/
def sampleRun : Analysis where
  rules := .descriptors [sampleRule]
  template := ⟨["stylelint"], "/stylelint.json"⟩
  directory := ⟨.root, []⟩
  tracked path := if path = "/a.css" then some ⟨⟨.root, ["a.css"]⟩, some "css", rfl⟩ else none
  settings := .standard

/-- Whatever the linter ends with, the sample run gets to see it. -/
theorem linted_sampleRun (result : ProcessResult) :
    ∃ registry content ended, Rule.Registry.ofDescriptors [sampleRule] = .ok registry ∧
      Linted sampleRun (machineEnding result) bareTree registry content ended result := by
  have hstore : (LinterConfig.store Disk.reliable bareTree sampleRun.configPath
      "\x7b\"rules\":\x7b\"block-no-empty\":true\x7d\x7d\n".toUTF8).2 = .ok () := by
    rfl
  refine ⟨_, _, _, rfl, _, ⟨⟨rfl, ?_⟩, Prod.ext rfl hstore⟩, rfl⟩
  decide +kernel

end Analysis

end LintGateway
