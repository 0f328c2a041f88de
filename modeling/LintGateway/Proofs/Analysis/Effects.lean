import LintGateway.Proofs.Analysis.Outcome

/-!
# The order of effects

A run that hands its issues on does three kinds of things to the world, and always in the same order:
it writes the configuration, starts the linter, and hands on each issue. `plan` is this order for
given issues. Whatever fails, what was done is a start of the plan (`analyze_in_order`): the step that
fails is the last one that was tried, its error is that of the whole run, and no issue is handed on
unless all of them are.
-/

set_option autoImplicit false

namespace LintGateway.Analysis

open Report Reconcile

variable {a : Analysis} {machine : Machine} {tree : FileTree}

/-- What a run does in order when nothing fails. -/
def plan (a : Analysis) (content : ByteArray) (issues : List NormalizedIssue) : List Effect :=
  .write a.configPath content :: .start a.command a.directory :: issues.map .save

/-- The issues that are handed on, in order. -/
def saved (effects : List Effect) : List NormalizedIssue :=
  effects.filterMap fun
    | .save issue => some issue
    | _ => none

/-- What the plan hands on are its issues. -/
theorem saved_plan (a : Analysis) (content : ByteArray) (issues : List NormalizedIssue) :
    saved (plan a content issues) = issues := by
  have hmap : saved (issues.map .save) = issues := by
    unfold saved
    rw [List.filterMap_map]
    exact List.filterMap_some
  exact hmap

/-! ## Handing issues on -/

/-- Handing issues on does nothing else: one effect for each of them, in order. -/
theorem saveAll_value (issues : List NormalizedIssue) (tree : FileTree) :
    (saveAll issues tree).value = ⟨tree, issues.map .save, .ok ()⟩ := by
  induction issues with
  | nil => rfl
  | cons issue issues ih =>
    have hfirst : (save issue tree).value = ⟨tree, [.save issue], .ok ()⟩ := rfl
    exact RunStep.value_bind_ok hfirst ih

/-- Emitting issues hands on each of them and counts them. -/
theorem emit_value (issues : List NormalizedIssue) (tree : FileTree) :
    (emit issues tree).value = ⟨tree, issues.map .save, .ok issues.length⟩ := by
  have hall : (emit issues tree).value =
      ⟨tree, issues.map .save ++ [], .ok issues.length⟩ :=
    RunStep.value_bind_ok (saveAll_value issues tree) rfl
  rw [List.append_nil] at hall
  exact hall

/-- A run that fails hands nothing on. -/
theorem analyze_of_error {left : FileTree} {effects : List Effect} {e : RunFailure}
    (h : (a.run machine tree).value = ⟨left, effects, .error e⟩) :
    (a.analyze machine tree).value = ⟨left, effects, .error e⟩ :=
  RunStep.value_bind_error emit h

/-- A run that gives issues hands on just those. -/
theorem analyze_of_ok {left : FileTree} {effects : List Effect} {issues : List NormalizedIssue}
    (h : (a.run machine tree).value = ⟨left, effects, .ok issues⟩) :
    (a.analyze machine tree).value =
      ⟨left, effects ++ issues.map .save, .ok issues.length⟩ :=
  RunStep.value_bind_ok h (emit_value issues left)

/-! ## Failing steps -/

/-- Where the directories cannot be made, storing ends with that. -/
theorem store_of_directory_error {disk : Disk} {p : Path} {content : ByteArray} {made : FileTree}
    {e : FileError} (h : disk.makeDirectories tree p.parent = (made, .error e)) :
    LinterConfig.store disk tree p content = (made, .error e) := by
  unfold LinterConfig.store
  rw [h]

/-- Where the directories are made, storing is writing the file. -/
theorem store_of_directory_ok {disk : Disk} {p : Path} (content : ByteArray) {made : FileTree}
    (h : disk.makeDirectories tree p.parent = (made, .ok ())) :
    LinterConfig.store disk tree p content = disk.write made p content := by
  unfold LinterConfig.store
  rw [h]

/-- What each failure leaves: the files, what was done until then, and the error. -/
structure StopsAtFailure (a : Analysis) (machine : Machine) (tree : FileTree)
    (whole : RunRecord Nat) : Prop where
  /-- Rules that are rejected leave everything as it was. -/
  rules : ∀ e, Analysis.registry a.rules = .error e → whole = ⟨tree, [], .error e⟩
  /-- So does a configuration without a text, and the error tells what has no form in it. -/
  text : ∀ registry obstacle, Analysis.registry a.rules = .ok registry →
    (LinterConfig.ofRegistry registry).serialize = .error obstacle →
    whole = ⟨tree, [], .error (.unwritable obstacle)⟩
  /-- Where the directories cannot be made, the file is not written. -/
  directory : ∀ registry content made e, Configured a registry content →
    machine.disk.makeDirectories tree a.configPath.parent = (made, .error e) →
    whole = ⟨made, [.write a.configPath content], .error (.file e)⟩
  /-- Where the file cannot be written, the linter is not started. -/
  file : ∀ registry content made stored e, Configured a registry content →
    machine.disk.makeDirectories tree a.configPath.parent = (made, .ok ()) →
    machine.disk.write made a.configPath content = (stored, .error e) →
    whole = ⟨stored, [.write a.configPath content], .error (.file e)⟩
  /-- Where the linter gives no result, there are no findings. -/
  command : ∀ registry content stored ended e, Stored a machine tree registry content stored →
    (machine.runs stored a.command a.directory).value = (ended, .error e) →
    whole = ⟨ended, plan a content [], .error (ofCommandError e)⟩
  /-- Where the report is malformed, the error tells that, or that the command failed with it. -/
  report : ∀ registry content ended result e,
    Linted a machine tree registry content ended result →
    Report.ofBytes result.stdout = .error e →
    whole = ⟨ended, plan a content [],
      .error (if result.isOk then .report e else .execution (failedReport result e))⟩
  /-- Where the exit status is not accepted, the report is not used. -/
  status : ∀ registry content ended result found,
    Linted a machine tree registry content ended result →
    Report.ofBytes result.stdout = .ok found → result.status ≠ 0 →
    a.settings.acceptNonzeroExit = false →
    whole = ⟨ended, plan a content [], .error (.execution (failedCommand result))⟩
  /-- Where a finding in a tracked file has an unknown rule, the error names one such rule. -/
  rule : ∀ registry content ended result found,
    Linted a machine tree registry content ended result →
    Accepts a.settings result found →
    (∃ place ∈ trackedFindings a.tracked found, registry.resolve place.2.externalId = none) →
    ∃ place ∈ trackedFindings a.tracked found, registry.resolve place.2.externalId = none ∧
      whole = ⟨ended, plan a content [], .error (.unknownRule ⟨place.2.externalId⟩)⟩

/-- An analysis stops at the first step that fails. -/
theorem analyze_stops (a : Analysis) (machine : Machine) (tree : FileTree) :
    StopsAtFailure a machine tree (a.analyze machine tree).value where
  rules := by
    intro e h
    exact analyze_of_error (run_of_rejected h)
  text := by
    intro registry obstacle h htext
    exact analyze_of_error (run_of_unwritable h htext)
  directory := by
    intro registry content made e h hdirectory
    exact analyze_of_error (run_of_store_error h (store_of_directory_error hdirectory))
  file := by
    intro registry content made stored e h hdirectory hfile
    have hstore := store_of_directory_ok content hdirectory
    rw [hfile] at hstore
    exact analyze_of_error (run_of_store_error h hstore)
  command := by
    intro registry content stored ended e h hruns
    exact analyze_of_error (run_of_command_error h hruns)
  report := by
    intro registry content ended result e h hread
    exact analyze_of_error (run_of_report_error h (findings_of_unreadable a.settings hread))
  status := by
    intro registry content ended result found h hread hstatus hpolicy
    exact analyze_of_error (run_of_report_error h (findings_of_refused hread hstatus hpolicy))
  rule := by
    rintro registry content ended result found h haccepts ⟨place, hplace, hrule⟩
    have hrun := run_of_found h (findings_of_accepts haccepts)
    cases hissues : (Reconcile.issues registry a.tracked found).value with
    | ok issues => exact absurd hissues (issues_ne_ok hplace hrule issues)
    | error failure =>
      obtain ⟨first, hfirst, hnone, rfl⟩ := unresolved_of_issues_eq_error hissues
      rw [hissues] at hrun
      exact ⟨first, hfirst, hnone, analyze_of_error hrun⟩

/-- The effects of a run that hands its issues on are a start of the plan, for the configuration of
the accepted rules; each failure ends the run where it happens and leaves what `StopsAtFailure` says;
and the issues that are handed on are none, when the run fails, or just those that it gives, each
once and in order, with their number as the result. -/
theorem analyze_in_order (a : Analysis) (machine : Machine) (tree : FileTree) :
    let lint := (a.run machine tree).value
    let whole := (a.analyze machine tree).value
    (whole.effects = [] ∨ ∃ registry content issues, Configured a registry content ∧
      whole.effects <+: plan a content issues) ∧
    StopsAtFailure a machine tree whole ∧
    ((∃ e, lint.result = .error e ∧ whole.result = .error e ∧ saved whole.effects = []) ∨
      ∃ registry content issues, Configured a registry content ∧ lint.result = .ok issues ∧
        whole.result = .ok issues.length ∧ whole.effects = plan a content issues ∧
        saved whole.effects = issues) := by
  refine ⟨?_, analyze_stops a machine tree, ?_⟩
  · -- a course ends before the first effect, after it, after the second, or with the whole plan
    have hcourse := run_course a machine tree
    generalize hrun : (a.run machine tree).value = record at hcourse
    cases hcourse with
    | rejected _ => rw [analyze_of_error hrun]; exact Or.inl rfl
    | unwritable _ _ => rw [analyze_of_error hrun]; exact Or.inl rfl
    | notStored hconfigured _ =>
      rw [analyze_of_error hrun]
      exact Or.inr ⟨_, _, [], hconfigured, [_], rfl⟩
    | notRun hstored _ =>
      rw [analyze_of_error hrun]
      exact Or.inr ⟨_, _, [], hstored.toConfigured, List.prefix_rfl⟩
    | notRead hlinted _ =>
      rw [analyze_of_error hrun]
      exact Or.inr ⟨_, _, [], hlinted.configured, List.prefix_rfl⟩
    | notReconciled hlinted _ _ =>
      rw [analyze_of_error hrun]
      exact Or.inr ⟨_, _, [], hlinted.configured, List.prefix_rfl⟩
    | done hlinted _ _ =>
      rw [analyze_of_ok hrun]
      exact Or.inr ⟨_, _, _, hlinted.configured, List.prefix_rfl⟩
  · have hcourse := run_course a machine tree
    generalize hrun : (a.run machine tree).value = record at hcourse
    cases hcourse with
    | done hlinted _ _ =>
      rw [analyze_of_ok hrun]
      exact Or.inr ⟨_, _, _, hlinted.configured, rfl, rfl, rfl, saved_plan a _ _⟩
    -- every other course ends with an error, and has handed nothing on by then
    | _ =>
      rw [analyze_of_error hrun]
      exact Or.inl ⟨_, rfl, rfl, rfl⟩

end LintGateway.Analysis
