import LintGateway.Proofs.Analysis.Course
import LintGateway.Proofs.Reconciliation

/-!
# The outcome of a run

When the linter has given a result, the outcome is decided by four things alone: whether its report
can be read, its exit status, whether the settings accept a failure status, and whether the rules of
the findings in tracked files resolve. `Verdict` lists what they decide in the order in which they are
asked, and `verdict` says that a run ends as listed. `run_outcome` turns the list round: for each
kind of outcome it says exactly when a run ends with it.
-/

set_option autoImplicit false

namespace LintGateway.Analysis

open Report Reconcile

variable {a : Analysis} {machine : Machine} {tree : FileTree} {registry : Rule.Registry}
variable {content : ByteArray} {ended : FileTree} {result : ProcessResult}

/-- The report of a result is readable and counts: the exit status is zero, or a failure status is
accepted. -/
def Accepts (settings : Settings) (result : ProcessResult) (found : List FileFindings) : Prop :=
  Report.ofBytes result.stdout = .ok found ∧
    (result.status = 0 ∨ settings.acceptNonzeroExit = true)

/-! ## Reading the report -/

/-- A result is in order when the status is zero. -/
theorem isOk_iff (result : ProcessResult) : result.isOk = true ↔ result.status = 0 := by
  unfold ProcessResult.isOk
  exact decide_eq_true_iff

/-- A report that cannot be read is an error of its own, or that of the command when this failed
too. -/
theorem findings_of_unreadable (settings : Settings) {e : FormatError}
    (h : Report.ofBytes result.stdout = .error e) :
    (findings settings result).value =
      .error (if result.isOk then .report e else .execution (failedReport result e)) := by
  unfold findings
  rw [h]
  rfl

/-- A result that is accepted gives the findings of its report. -/
theorem findings_of_accepts {settings : Settings} {found : List FileFindings}
    (h : Accepts settings result found) : (findings settings result).value = .ok found := by
  obtain ⟨hread, hstatus⟩ := h
  unfold findings
  rw [hread]
  by_cases hok : result.isOk = true
  · simp only [hok, if_true]
    rfl
  · have haccept : settings.acceptNonzeroExit = true := by
      rcases hstatus with hzero | haccept
      · exact absurd ((isOk_iff result).mpr hzero) hok
      · exact haccept
    simp only [hok, haccept, if_true]
    rfl

/-- A status that is not accepted fails with the command, though the report can be read. -/
theorem findings_of_refused {settings : Settings} {found : List FileFindings}
    (hread : Report.ofBytes result.stdout = .ok found) (hstatus : result.status ≠ 0)
    (hpolicy : settings.acceptNonzeroExit = false) :
    (findings settings result).value = .error (.execution (failedCommand result)) := by
  have hok : ¬ result.isOk = true := fun h => hstatus ((isOk_iff result).mp h)
  unfold findings
  rw [hread]
  simp only [hok, hpolicy, Bool.false_eq_true, if_false]
  rfl

/-! ## What is decided -/

/-- What comes of a result of the linter, each outcome with what leads to it. -/
inductive Verdict (a : Analysis) (registry : Rule.Registry) (result : ProcessResult) :
    Except RunFailure (List NormalizedIssue) → Prop where
  | unreadable {e : FormatError} (status : result.status = 0)
      (report : Report.ofBytes result.stdout = .error e) :
      Verdict a registry result (.error (.report e))
  | failed {e : FormatError} (status : result.status ≠ 0)
      (report : Report.ofBytes result.stdout = .error e) :
      Verdict a registry result (.error (.execution (failedReport result e)))
  | refused {found : List FileFindings} (status : result.status ≠ 0)
      (policy : a.settings.acceptNonzeroExit = false)
      (report : Report.ofBytes result.stdout = .ok found) :
      Verdict a registry result (.error (.execution (failedCommand result)))
  | unresolved {found : List FileFindings} {place : InputFile × Finding}
      (accepted : Accepts a.settings result found)
      (place_mem : place ∈ trackedFindings a.tracked found)
      (rule : registry.resolve place.2.externalId = none) :
      Verdict a registry result (.error (.unknownRule ⟨place.2.externalId⟩))
  | issues {found : List FileFindings} {issues : List NormalizedIssue}
      (accepted : Accepts a.settings result found)
      (each : List.Forall₂ (IsIssueOf registry) (trackedFindings a.tracked found) issues) :
      Verdict a registry result (.ok issues)

/-- A run ends as its result decides. The check on each issue adds no outcome of its own, because no
finding that was read fails it. -/
theorem verdict (h : Linted a machine tree registry content ended result) :
    Verdict a registry result (a.run machine tree).value.result := by
  cases hread : Report.ofBytes result.stdout with
  | error e =>
    rw [run_of_report_error h (findings_of_unreadable a.settings hread)]
    by_cases hstatus : result.status = 0
    · rw [if_pos ((isOk_iff result).mpr hstatus)]
      exact .unreadable hstatus hread
    · rw [if_neg fun hok => hstatus ((isOk_iff result).mp hok)]
      exact .failed hstatus hread
  | ok found =>
    by_cases hpolicy : result.status = 0 ∨ a.settings.acceptNonzeroExit = true
    · have haccepts : Accepts a.settings result found := ⟨hread, hpolicy⟩
      rw [run_of_found h (findings_of_accepts haccepts)]
      cases hissues : (Reconcile.issues registry a.tracked found).value with
      | ok issues =>
        exact .issues haccepts ((issues_eq_ok_iff registry a.tracked found issues).mp hissues)
      | error failure =>
        obtain ⟨place, hplace, hrule, rfl⟩ := unresolved_of_issues_eq_error hissues
        exact .unresolved haccepts hplace hrule
    · have hstatus : result.status ≠ 0 := fun hzero => hpolicy (Or.inl hzero)
      have hrefused : a.settings.acceptNonzeroExit = false := by
        rw [Bool.eq_false_iff]
        exact fun haccept => hpolicy (Or.inr haccept)
      rw [run_of_report_error h (findings_of_refused hread hstatus hrefused)]
      exact .refused hstatus hrefused hread

/-! ## When each outcome comes about -/

variable {outcome : Except RunFailure (List NormalizedIssue)}

/-- The findings of a result that is accepted are those of its report. -/
theorem Accepts.read {settings : Settings} {found : List FileFindings}
    (h : Accepts settings result found) : Report.ofBytes result.stdout = .ok found := h.1

/-- A report that counts is not malformed. -/
theorem Accepts.not_unreadable {settings : Settings} {found : List FileFindings} {e : FormatError}
    (h : Accepts settings result found) : ¬ Report.ofBytes result.stdout = .error e := by
  intro hread
  rw [h.read] at hread
  cases hread

/-- A run fails with the report exactly when the command succeeded and the report cannot be read. -/
theorem Verdict.report_iff (h : Verdict a registry result outcome) (e : FormatError) :
    outcome = .error (.report e) ↔
      result.status = 0 ∧ Report.ofBytes result.stdout = .error e := by
  constructor
  · rintro rfl
    cases h with
    | unreadable hstatus hread => exact ⟨hstatus, hread⟩
  · rintro ⟨hstatus, hread⟩
    cases h with
    | unreadable _ hread' =>
      rw [hread] at hread'
      rw [Except.error.inj hread']
    | failed hstatus' _ => exact absurd hstatus hstatus'
    | refused hstatus' _ _ => exact absurd hstatus hstatus'
    | unresolved haccepts _ _ => exact absurd hread haccepts.not_unreadable
    | issues haccepts _ => exact absurd hread haccepts.not_unreadable

/-- The failure of a command is told with its command line, status and error stream; when its report
cannot be read, that is named as the cause, and otherwise there is none. -/
theorem Verdict.execution_iff (h : Verdict a registry result outcome) (x : ExecutionError) :
    outcome = .error (.execution x) ↔
      result.status ≠ 0 ∧
        ((∃ e, Report.ofBytes result.stdout = .error e ∧ x = failedReport result e) ∨
          ((∃ found, Report.ofBytes result.stdout = .ok found) ∧
            a.settings.acceptNonzeroExit = false ∧ x = failedCommand result)) := by
  constructor
  · rintro rfl
    cases h with
    | failed hstatus hread => exact ⟨hstatus, Or.inl ⟨_, hread, rfl⟩⟩
    | refused hstatus hpolicy hread => exact ⟨hstatus, Or.inr ⟨⟨_, hread⟩, hpolicy, rfl⟩⟩
  · rintro ⟨hstatus, ⟨e, hread, rfl⟩ | ⟨⟨found, hread⟩, hpolicy, rfl⟩⟩
    · cases h with
      | unreadable hstatus' _ => exact absurd hstatus' hstatus
      | failed _ hread' =>
        rw [hread] at hread'
        rw [Except.error.inj hread']
      | refused _ _ hread' =>
        rw [hread] at hread'
        cases hread'
      | unresolved haccepts _ _ => exact absurd hread haccepts.not_unreadable
      | issues haccepts _ => exact absurd hread haccepts.not_unreadable
    · have hrefused : ∀ found, ¬ Accepts a.settings result found := by
        rintro found ⟨-, hzero | haccept⟩
        · exact hstatus hzero
        · rw [hpolicy] at haccept
          cases haccept
      cases h with
      | unreadable hstatus' _ => exact absurd hstatus' hstatus
      | failed _ hread' =>
        rw [hread] at hread'
        cases hread'
      | refused _ _ _ => rfl
      | unresolved haccepts _ _ => exact absurd haccepts (hrefused _)
      | issues haccepts _ => exact absurd haccepts (hrefused _)

/-- An accepted report decides between issues and an unknown rule. -/
theorem Verdict.of_accepts (h : Verdict a registry result outcome) {found : List FileFindings}
    (haccepts : Accepts a.settings result found) :
    (∃ place ∈ trackedFindings a.tracked found, registry.resolve place.2.externalId = none ∧
        outcome = .error (.unknownRule ⟨place.2.externalId⟩)) ∨
      ∃ issues, List.Forall₂ (IsIssueOf registry) (trackedFindings a.tracked found) issues ∧
        outcome = .ok issues := by
  have hsame : ∀ found', Accepts a.settings result found' → found' = found := by
    intro found' haccepts'
    have hread := haccepts'.read
    rw [haccepts.read] at hread
    exact (Except.ok.inj hread).symm
  cases h with
  | unreadable _ hread => exact absurd hread haccepts.not_unreadable
  | failed _ hread => exact absurd hread haccepts.not_unreadable
  | refused hstatus hpolicy _ =>
    rcases haccepts.2 with hzero | haccept
    · exact absurd hzero hstatus
    · rw [hpolicy] at haccept
      cases haccept
  | unresolved haccepts' hplace hrule =>
    obtain rfl := hsame _ haccepts'
    exact Or.inl ⟨_, hplace, hrule, rfl⟩
  | issues haccepts' heach =>
    obtain rfl := hsame _ haccepts'
    exact Or.inr ⟨_, heach, rfl⟩

/-- A run fails with an unknown rule exactly when a finding of an accepted report has one. -/
theorem Verdict.unknownRule_iff (h : Verdict a registry result outcome) :
    (∃ u, outcome = .error (.unknownRule u)) ↔
      ∃ found, Accepts a.settings result found ∧
        ∃ place ∈ trackedFindings a.tracked found,
          registry.resolve place.2.externalId = none := by
  constructor
  · rintro ⟨u, rfl⟩
    cases h with
    | unresolved haccepts hplace hrule => exact ⟨_, haccepts, _, hplace, hrule⟩
  · rintro ⟨found, haccepts, place, hplace, hrule⟩
    rcases h.of_accepts haccepts with ⟨other, -, -, rfl⟩ | ⟨issues, heach, rfl⟩
    · exact ⟨_, rfl⟩
    · have hissues := (issues_eq_ok_iff registry a.tracked found issues).mpr heach
      exact absurd hissues (issues_ne_ok hplace hrule issues)

/-- A run gives issues exactly when they are those of an accepted report, finding by finding. -/
theorem Verdict.ok_iff (h : Verdict a registry result outcome)
    (issues : List NormalizedIssue) :
    outcome = .ok issues ↔
      ∃ found, Accepts a.settings result found ∧
        List.Forall₂ (IsIssueOf registry) (trackedFindings a.tracked found) issues := by
  constructor
  · rintro rfl
    cases h with
    | issues haccepts heach => exact ⟨_, haccepts, heach⟩
  · rintro ⟨found, haccepts, heach⟩
    have hgiven := (issues_eq_ok_iff registry a.tracked found issues).mpr heach
    rcases h.of_accepts haccepts with ⟨place, hplace, hrule, -⟩ | ⟨others, hothers, rfl⟩
    · exact absurd hgiven (issues_ne_ok hplace hrule issues)
    · have hother := (issues_eq_ok_iff registry a.tracked found others).mpr hothers
      rw [hgiven] at hother
      rw [Except.ok.inj hother]

/-- The error of a failed command, member by member. -/
theorem eq_failedCommand_iff (result : ProcessResult) (x : ExecutionError) :
    x = failedCommand result ↔
      (x.command = result.command ∧ x.status = result.status ∧ x.stderr = some result.stderr) ∧
        x.detail = none ∧ x.cause = none := by
  obtain ⟨command, status, stderr, detail, cause⟩ := x
  simp only [failedCommand, ExecutionError.mk.injEq, and_assoc]

/-- The failure with a report is known by what it tells. -/
theorem eq_failedReport_iff (result : ProcessResult) (e : FormatError) (x : ExecutionError) :
    x = failedReport result e ↔
      (x.command = result.command ∧ x.status = result.status ∧ x.stderr = some result.stderr) ∧
        x.detail = some ("no usable report: " ++ e.message) ∧ x.cause = some (.report e) := by
  obtain ⟨command, status, stderr, detail, cause⟩ := x
  simp only [failedReport, failedCommand, ExecutionError.mk.injEq, and_assoc]

/-- Once the linter has given a result, a run ends in one of four ways and in no other. It ends with
the error of the report when the report is unreadable and the status zero; with a failed command,
told with the command line, the status and the error stream, when the status is another and the
report is unreadable, which is then the cause, or the status is not accepted, and there is then no
cause; with an unknown rule when the report counts and a finding in a tracked file names a rule that
does not resolve; and with the issues of the findings in tracked files otherwise. -/
theorem run_outcome (h : Linted a machine tree registry content ended result) :
    let outcome := (a.run machine tree).value.result
    let counts := result.status = 0 ∨ a.settings.acceptNonzeroExit = true
    (∀ e, outcome = .error (.report e) ↔
      result.status = 0 ∧ Report.ofBytes result.stdout = .error e) ∧
    (∀ x, outcome = .error (.execution x) ↔
      result.status ≠ 0 ∧
      (x.command = result.command ∧ x.status = result.status ∧ x.stderr = some result.stderr) ∧
      ((∃ e, Report.ofBytes result.stdout = .error e ∧
          x.detail = some ("no usable report: " ++ e.message) ∧ x.cause = some (.report e)) ∨
        ((∃ found, Report.ofBytes result.stdout = .ok found) ∧
          a.settings.acceptNonzeroExit = false ∧ x.detail = none ∧ x.cause = none))) ∧
    ((∃ u, outcome = .error (.unknownRule u)) ↔
      ∃ found, Report.ofBytes result.stdout = .ok found ∧ counts ∧
        ∃ entry ∈ found, (∃ file, a.tracked entry.sourcePath = some file) ∧
          ∃ f ∈ entry.findings, registry.resolve f.externalId = none) ∧
    (∀ issues, outcome = .ok issues ↔
      ∃ found, Report.ofBytes result.stdout = .ok found ∧ counts ∧
        List.Forall₂ (IsIssueOf registry) (trackedFindings a.tracked found) issues) ∧
    ((∃ e, outcome = .error (.report e)) ∨ (∃ x, outcome = .error (.execution x)) ∨
      (∃ u, outcome = .error (.unknownRule u)) ∨ ∃ issues, outcome = .ok issues) := by
  have hverdict := verdict h
  refine ⟨hverdict.report_iff, ?_, ?_, ?_, ?_⟩
  · intro x
    rw [hverdict.execution_iff]
    simp only [eq_failedReport_iff, eq_failedCommand_iff]
    constructor
    · rintro ⟨hstatus, ⟨e, hread, hsame, hmore⟩ | ⟨hread, hpolicy, hsame, hmore⟩⟩
      · exact ⟨hstatus, hsame, Or.inl ⟨e, hread, hmore⟩⟩
      · exact ⟨hstatus, hsame, Or.inr ⟨hread, hpolicy, hmore⟩⟩
    · rintro ⟨hstatus, hsame, ⟨e, hread, hmore⟩ | ⟨hread, hpolicy, hmore⟩⟩
      · exact ⟨hstatus, Or.inl ⟨e, hread, hsame, hmore⟩⟩
      · exact ⟨hstatus, Or.inr ⟨hread, hpolicy, hsame, hmore⟩⟩
  · rw [hverdict.unknownRule_iff]
    unfold Accepts
    simp only [and_assoc, mem_trackedFindings_iff]
    refine exists_congr fun found => and_congr_right fun _ => and_congr_right fun _ => ?_
    constructor
    · rintro ⟨place, ⟨entry, hentry, hfile, hf⟩, hrule⟩
      exact ⟨entry, hentry, ⟨_, hfile⟩, _, hf, hrule⟩
    · rintro ⟨entry, hentry, ⟨file, hfile⟩, f, hf, hrule⟩
      exact ⟨(file, f), ⟨entry, hentry, hfile, hf⟩, hrule⟩
  · intro issues
    rw [hverdict.ok_iff]
    unfold Accepts
    simp only [and_assoc]
  · generalize (a.run machine tree).value.result = outcome at hverdict
    cases hverdict with
    | unreadable _ _ => exact Or.inl ⟨_, rfl⟩
    | failed _ _ => exact Or.inr (Or.inl ⟨_, rfl⟩)
    | refused _ _ _ => exact Or.inr (Or.inl ⟨_, rfl⟩)
    | unresolved _ _ _ => exact Or.inr (Or.inr (Or.inl ⟨_, rfl⟩))
    | issues _ _ => exact Or.inr (Or.inr (Or.inr ⟨_, rfl⟩))

/-- A linter that breaks off with a failure status and says nothing on its output. -/
def brokenOff : ProcessResult :=
  { command := ["stylelint"], status := 2, stdout := ByteArray.empty, stderr := "out of memory" }

/-- The sample run with that linter fails with its command, and the empty report is the cause. -/
theorem run_outcome_brokenOff :
    (sampleRun.run (machineEnding brokenOff) bareTree).value.result =
      .error (.execution (failedReport brokenOff { reason := "report is empty" })) := by
  obtain ⟨registry, content, ended, -, hlinted⟩ := linted_sampleRun brokenOff
  have hread : Report.ofBytes brokenOff.stdout = .error { reason := "report is empty" } := by
    decide +kernel
  refine ((run_outcome hlinted).2.1 _).mpr ?_
  exact ⟨by decide, ⟨rfl, rfl, rfl⟩, Or.inl ⟨_, hread, rfl, rfl⟩⟩

end LintGateway.Analysis
