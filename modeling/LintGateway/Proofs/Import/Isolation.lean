import LintGateway.Proofs.Import

/-!
# Reports are imported each on its own

A report file that cannot be read, or whose content is no report, is skipped as a whole: nothing of
it is imported, one warning tells about it, and the import goes on. What comes from a file
(`Yields`) depends on that file alone, and what is imported from a list of files is what comes from
each of them, in their order (`all_isolates`). Hence a file that goes bad takes its own issues away
and no others.
-/

set_option autoImplicit false

namespace LintGateway

namespace Severity

/-- What a label says of a severity: the one that it names, and otherwise, or when there is no label
at all, that of a warning. -/
inductive SaidBy : Option String → Severity → Prop
  | named {label : String} {severity : Severity}
      (h : (Text.lower (Text.trim label), severity) ∈ labels) : SaidBy (some label) severity
  | unknown {label : String} (h : ∀ severity, (Text.lower (Text.trim label), severity) ∉ labels) :
      SaidBy (some label) .warning
  | absent : SaidBy none .warning

/-- A label names the severity that stands beside it in the table of labels. -/
theorem ofLabel?_eq_some_iff (label : String) (severity : Severity) :
    ofLabel? label = some severity ↔ (Text.lower (Text.trim label), severity) ∈ labels := by
  unfold ofLabel?
  generalize Text.lower (Text.trim label) = name
  constructor
  · intro h
    obtain ⟨before, after, heq, -⟩ := List.lookup_eq_some_iff.mp h
    rw [heq]
    exact List.mem_append_right _ List.mem_cons_self
  · intro h
    simp only [labels, List.mem_cons, Prod.mk.injEq, List.not_mem_nil, or_false] at h
    rcases h with ⟨rfl, rfl⟩ | ⟨rfl, rfl⟩ | ⟨rfl, rfl⟩ | ⟨rfl, rfl⟩ | ⟨rfl, rfl⟩ | ⟨rfl, rfl⟩ |
      ⟨rfl, rfl⟩ | ⟨rfl, rfl⟩ | ⟨rfl, rfl⟩ <;> decide +kernel

/-- A label says the severity that is read from it, and a warning if none is. -/
theorem saidBy_iff (label : Option String) (severity : Severity) :
    SaidBy label severity ↔ severity = ofLabelOr label .warning := by
  unfold ofLabelOr
  cases label with
  | none =>
    constructor
    · rintro ⟨⟩
      rfl
    · rintro rfl
      exact .absent
  | some label =>
    rw [Option.bind_some]
    cases hlabel : ofLabel? label with
    | none =>
      have hunknown : ∀ s, (Text.lower (Text.trim label), s) ∉ labels := by
        intro s hs
        rw [← ofLabel?_eq_some_iff, hlabel] at hs
        cases hs
      constructor
      · rintro (hnamed | -)
        · exact absurd hnamed (hunknown severity)
        · rfl
      · rintro rfl
        exact .unknown hunknown
    | some named =>
      have hnamed := (ofLabel?_eq_some_iff _ _).mp hlabel
      constructor
      · rintro (hother | hunknown)
        · rw [← ofLabel?_eq_some_iff, hlabel] at hother
          exact (Option.some.inj hother).symm
        · exact absurd hnamed (hunknown named)
      · rintro rfl
        exact .named hnamed

/-- The empty label names nothing. -/
example : SaidBy (some "") .warning := (saidBy_iff ..).mpr (by decide +kernel)

end Severity

namespace Import

open Reconcile (trackedIn trackedFindings)
open Report

/-- The lines of a log that are warnings. -/
def warnings (lines : List LogLine) : List LogLine := lines.filter fun l => l.level = .warning

/-- The warnings of lines in a row are those of the parts. -/
@[simp] theorem warnings_append (a b : List LogLine) :
    warnings (a ++ b) = warnings a ++ warnings b := List.filter_append ..

section Spec

variable (files : FileReader) (tracked : FileLookup)

/-- An imported issue tells of a finding in a tracked file: it names the rule as the report does and
is as serious as the label of the finding says. -/
structure IsImportOf (place : InputFile × Finding) (issue : ExternalIssue) : Prop where
  engine : issue.engine = ExternalIssue.standardEngine
  ruleId : issue.ruleId = place.2.externalId
  file : issue.file = place.1
  line : issue.line = place.2.line
  message : issue.message = place.2.message
  severity : Severity.SaidBy place.2.severity issue.severity

/-- The entries of a report that are about files that are not tracked. -/
def untrackedEntries (found : List FileFindings) : List FileFindings :=
  found.filter fun entry => (tracked entry.sourcePath).isNone

/-- The issues that come from the report file at a path, and the warnings that are said about it:
nothing but one warning when it cannot be read or its content is no report; otherwise an issue for
each finding in a tracked file and a warning for each entry of one that is not tracked. -/
inductive Yields (p : Path) : List ExternalIssue → List LogLine → Prop
  | unreadable {e : FileError} (h : files p = .error e) : Yields p [] [skippedLine p (.file e)]
  | malformed {content : ByteArray} {e : FormatError} (h : files p = .ok content)
      (hreport : Report.ofBytes content = .error e) : Yields p [] [skippedLine p (.format e)]
  | report {content : ByteArray} {found : List FileFindings} {issues : List ExternalIssue}
      (h : files p = .ok content) (hreport : Report.ofBytes content = .ok found)
      (hissues : List.Forall₂ IsImportOf (trackedFindings tracked found) issues) :
      Yields p issues
        ((untrackedEntries tracked found).map fun entry => untrackedLine entry.sourcePath)

/-- The report file at a path cannot be used: it cannot be read, or its content is no report. -/
def IsSkipped (p : Path) : Prop :=
  (∃ e, files p = .error e) ∨
    ∃ content e, files p = .ok content ∧ Report.ofBytes content = .error e

/-- The import of a list of report files comes to its end, with these issues. -/
def EndsWith (base : Path) (ps : List Path) (issues : List ExternalIssue) : Prop :=
  ∃ logged, all files tracked base ps = .ok logged ∧ logged.value = .ok issues

end Spec

variable {files : FileReader} {tracked : FileLookup} {base : Path}

/-! ## One report file -/

/-- The issue that is imported for a finding is an import of it. -/
theorem isImportOf_importedIssue (place : InputFile × Finding) :
    IsImportOf place (importedIssue place) :=
  ⟨rfl, rfl, rfl, rfl, rfl, (Severity.saidBy_iff _ _).mpr rfl⟩

/-- The entries of a report warn of each file that is not tracked. -/
theorem warnings_issuesOfEntries (found : List FileFindings) :
    warnings (issuesOfEntries tracked found).lines =
      (untrackedEntries tracked found).map fun entry => untrackedLine entry.sourcePath := by
  induction found with
  | nil => rfl
  | cons entry entries ih =>
    have hlines : (issuesOfEntries tracked (entry :: entries)).lines =
        (issuesOfEntry tracked entry).lines ++ (issuesOfEntries tracked entries).lines := by
      rw [issuesOfEntries, Logged.lines_bind, issuesOfEntry_value]
      exact congrArg _ (List.append_nil _)
    rw [hlines, warnings_append, ih]
    unfold issuesOfEntry untrackedEntries
    cases htracked : tracked entry.sourcePath with
    | none =>
      rw [List.filter_cons_of_pos (by simp [htracked])]
      rfl
    | some file =>
      rw [List.filter_cons_of_neg (by simp [htracked])]
      rfl

/-- The warnings about a report file. -/
def reportWarnings (files : FileReader) (tracked : FileLookup) (p : Path) : List LogLine :=
  match readReport files p with
  | .error why => [skippedLine p why]
  | .ok found => (untrackedEntries tracked found).map fun entry => untrackedLine entry.sourcePath

/-- A report warns of what is wrong with it, or of its files that are not tracked. -/
theorem warnings_issuesOfReport (p : Path) :
    warnings (issuesOfReport files tracked p).lines = reportWarnings files tracked p := by
  unfold issuesOfReport reportWarnings
  cases readReport files p with
  | error why => rfl
  | ok found =>
    show warnings ((issuesOfEntries tracked found >>= _).lines) = _
    rw [Logged.lines_bind, issuesOfEntries_value, warnings_append, warnings_issuesOfEntries]
    exact List.append_nil _

/-- A report yields its issues and its warnings. -/
theorem yields_reportIssues (p : Path) :
    Yields files tracked p (reportIssues files tracked p) (reportWarnings files tracked p) := by
  unfold reportIssues reportWarnings readReport
  cases hread : files p with
  | error e => exact .unreadable hread
  | ok content =>
    simp only
    cases hreport : Report.ofBytes content with
    | error e => exact .malformed hread hreport
    | ok found =>
      have hissues : List.Forall₂ IsImportOf (trackedFindings tracked found)
          ((trackedFindings tracked found).map importedIssue) :=
        List.forall₂_map_right_iff.mpr
          (List.forall₂_same.mpr fun place _ => isImportOf_importedIssue place)
      exact .report hread hreport hissues

section Yields

variable {p : Path} {found : List ExternalIssue} {lines : List LogLine}

/-- A report that cannot be opened yields nothing but a line about it. -/
theorem Yields.of_error (h : Yields files tracked p found lines) {e : FileError}
    (hread : files p = .error e) : found = [] ∧ lines = [skippedLine p (.file e)] := by
  cases h with
  | unreadable h =>
    rw [Except.error.inj (h.symm.trans hread)]
    exact ⟨rfl, rfl⟩
  | malformed h | report h => cases h.symm.trans hread

/-- A report that can be used yields an import of each tracked finding, and a warning for each other
file. -/
theorem Yields.of_report (h : Yields files tracked p found lines) {content : ByteArray}
    {entries : List FileFindings} (hread : files p = .ok content)
    (hreport : Report.ofBytes content = .ok entries) :
    List.Forall₂ IsImportOf (trackedFindings tracked entries) found ∧
      lines = (untrackedEntries tracked entries).map fun entry => untrackedLine entry.sourcePath := by
  cases h with
  | unreadable h => cases h.symm.trans hread
  | malformed h hbad =>
    obtain rfl := Except.ok.inj (h.symm.trans hread)
    cases hbad.symm.trans hreport
  | report h hother hissues =>
    obtain rfl := Except.ok.inj (h.symm.trans hread)
    obtain rfl := Except.ok.inj (hother.symm.trans hreport)
    exact ⟨hissues, rfl⟩

end Yields

/-- A report that is skipped has no issues. -/
theorem reportIssues_of_isSkipped {p : Path} (h : IsSkipped files p) :
    reportIssues files tracked p = [] := by
  unfold reportIssues readReport
  rcases h with ⟨e, hread⟩ | ⟨content, e, hread, hreport⟩
  · rw [hread]
  · simp only [hread, hreport]
    rfl

/-! ## A list of report files -/

/-- The warnings of an import are those of its reports, in order. -/
theorem warnings_issues (ps : List Path) :
    warnings (issues files tracked base ps).lines =
      ps.flatMap fun p => reportWarnings files tracked (base.join p) := by
  induction ps with
  | nil => rfl
  | cons p ps ih =>
    have hlines : (issues files tracked base (p :: ps)).lines =
        (issuesOfReport files tracked (base.join p)).lines ++
          (issues files tracked base ps).lines := by
      rw [issues, Logged.lines_bind, issuesOfReport_value]
      exact congrArg _ (List.append_nil _)
    rw [hlines, warnings_append, warnings_issuesOfReport, ih, List.flatMap_cons]

/-- Without null characters in the paths an import comes to its end. -/
theorem all_eq_ok {ps : List Path} (h : ∀ p ∈ ps, (base.join p).holdsNull = false) :
    all files tracked base ps = .ok (issues files tracked base ps) := by
  have hnull : (ps.any fun p => (base.join p).holdsNull) = false := by
    rw [List.any_eq_false]
    intro p hp
    simp [h p hp]
  unfold all
  rw [hnull]
  rfl

/-- An import ends with the issues of its reports, in order. -/
theorem endsWith_flatMap {ps : List Path} (h : ∀ p ∈ ps, (base.join p).holdsNull = false) :
    EndsWith files tracked base ps
      (ps.flatMap fun p => reportIssues files tracked (base.join p)) :=
  ⟨_, all_eq_ok h, issues_value files tracked base ps⟩

/-- Issues that come from files only hang on the content of these files. -/
theorem flatMap_reportIssues_congr {other : FileReader} {ps : List Path}
    (h : ∀ p ∈ ps, other (base.join p) = files (base.join p)) :
    (ps.flatMap fun p => reportIssues other tracked (base.join p)) =
      ps.flatMap fun p => reportIssues files tracked (base.join p) := by
  refine List.flatMap_congr fun p hp => ?_
  unfold reportIssues readReport
  rw [h p hp]

/-- Importing report files never fails. What is imported from a list of them is what comes from each
file, in the order of the list, and so are the warnings: one for a file that is skipped, and one for
each entry of a file that is not tracked. So a list may be imported in two parts; and where one file
is replaced by one that cannot be read or is no report, or turns into one, just the issues that came
from it are gone. -/
theorem all_isolates (files : FileReader) (tracked : FileLookup) (base : Path) (ps : List Path)
    (h : ∀ p ∈ ps, (base.join p).holdsNull = false) :
    (∃ logged parts, all files tracked base ps = .ok logged ∧
      List.Forall₂ (fun p part => Yields files tracked (base.join p) part.1 part.2) ps parts ∧
      logged.value = .ok (parts.flatMap Prod.fst) ∧
      warnings logged.lines = parts.flatMap Prod.snd) ∧
    (∀ left right, ps = left ++ right → ∃ before after,
      EndsWith files tracked base left before ∧ EndsWith files tracked base right after ∧
      EndsWith files tracked base ps (before ++ after)) ∧
    ∀ left p right other bad, ps = left ++ p :: right →
      (∀ q ∈ left ++ right, other (base.join q) = files (base.join q)) →
      (base.join bad).holdsNull = false → IsSkipped other (base.join bad) →
      ∃ before own after, EndsWith files tracked base left before ∧
        EndsWith files tracked base [p] own ∧ EndsWith files tracked base right after ∧
        EndsWith files tracked base ps (before ++ own ++ after) ∧
        EndsWith other tracked base (left ++ bad :: right) (before ++ after) := by
  refine ⟨?_, ?_, ?_⟩
  · refine ⟨_, ps.map fun p => (reportIssues files tracked (base.join p),
      reportWarnings files tracked (base.join p)), all_eq_ok h, ?_, ?_, ?_⟩
    · exact List.forall₂_map_right_iff.mpr
        (List.forall₂_same.mpr fun p _ => yields_reportIssues (base.join p))
    · rw [issues_value, List.flatMap_map]
    · rw [warnings_issues, List.flatMap_map]
  · rintro left right rfl
    have hsplit := List.forall_mem_append.mp h
    refine ⟨_, _, endsWith_flatMap hsplit.1, endsWith_flatMap hsplit.2, ?_⟩
    rw [← List.flatMap_append]
    exact endsWith_flatMap h
  · rintro left p right other bad rfl hsame hbad hskipped
    obtain ⟨hleft, hrest⟩ := List.forall_mem_append.mp h
    obtain ⟨hp, hright⟩ := List.forall_mem_cons.mp hrest
    have hown : ∀ q ∈ [p], (base.join q).holdsNull = false := by simpa using hp
    refine ⟨_, _, _, endsWith_flatMap hleft, endsWith_flatMap hown, endsWith_flatMap hright, ?_, ?_⟩
    · rw [List.append_assoc, ← List.flatMap_append, List.singleton_append, ← List.flatMap_append]
      exact endsWith_flatMap h
    · -- with the other files the report in place of `p` gives nothing, and the rest what it gave
      have hothers : ∀ q ∈ left ++ bad :: right, (base.join q).holdsNull = false :=
        List.forall_mem_append.mpr ⟨hleft, List.forall_mem_cons.mpr ⟨hbad, hright⟩⟩
      have hends : EndsWith other tracked base (left ++ bad :: right) _ :=
        endsWith_flatMap hothers
      rwa [List.flatMap_append, List.flatMap_cons, reportIssues_of_isSkipped hskipped,
        List.nil_append, ← List.flatMap_append, flatMap_reportIssues_congr hsame,
        List.flatMap_append] at hends

/-- Beside a report that is missing another one is imported, and one warning is said. -/
theorem all_isolates_blockReport :
    (∀ p ∈ [⟨.here, ["gone.json"]⟩, ⟨.here, ["report.json"]⟩],
      (Path.join ⟨.root, []⟩ p).holdsNull = false) ∧
    ∃ logged issues,
      all reportTree trackedStyle ⟨.root, []⟩
        [⟨.here, ["gone.json"]⟩, ⟨.here, ["report.json"]⟩] = .ok logged ∧
      logged.value = .ok issues ∧ issues.length = 1 ∧
      warnings logged.lines = [skippedLine ⟨.root, ["gone.json"]⟩ (.file .missing)] := by
  have hnull : ∀ p ∈ [⟨.here, ["gone.json"]⟩, ⟨.here, ["report.json"]⟩],
      (Path.join ⟨.root, []⟩ p).holdsNull = false := by decide
  refine ⟨hnull, ?_⟩
  obtain ⟨⟨logged, parts, hall, hparts, hvalue, hwarnings⟩, -⟩ :=
    all_isolates reportTree trackedStyle ⟨.root, []⟩ _ hnull
  have hgone : reportTree.read ⟨.root, ["gone.json"]⟩ = .error .missing := rfl
  have hread : reportTree.read ⟨.root, ["report.json"]⟩ = .ok blockReport.toUTF8 := rfl
  have htext : Report.ofText blockReport = .ok blockFindings := by decide +kernel
  have hreport : Report.ofBytes blockReport.toUTF8 = .ok blockFindings := by
    rw [Report.ofBytes_toUTF8, htext]
  obtain ⟨⟨first, firstLines⟩, _, hmissing, hrest, rfl⟩ := List.forall₂_cons_left_iff.mp hparts
  obtain ⟨⟨second, secondLines⟩, _, hfound, hnil, rfl⟩ := List.forall₂_cons_left_iff.mp hrest
  obtain rfl := List.forall₂_nil_left_iff.mp hnil
  obtain ⟨rfl, rfl⟩ := Yields.of_error hmissing hgone
  obtain ⟨hissues, rfl⟩ := Yields.of_report hfound hread hreport
  have hone : (trackedFindings trackedStyle blockFindings).length = 1 := rfl
  refine ⟨logged, _, hall, hvalue, ?_, hwarnings⟩
  rw [← hone, hissues.length_eq]
  simp

end Import

end LintGateway
