import LintGateway.Import
import LintGateway.Proofs.Reconciliation
import LintGateway.Proofs.Report.Bytes

/-!
# Importing beside reconciling

Importing a report goes through the same findings as reconciling it: those in tracked files, in the
order of the report. Where reconciling asks for the key of the rule, importing keeps its name, so it
never stops at a finding. A report that both can read therefore gives the same issues on both ways,
as long as reconciling gives any (`import_agrees`).
-/

set_option autoImplicit false

namespace LintGateway

open Schema

/-- The name of a severity is read as this severity. -/
theorem Severity.read_name (severity : Severity) :
    Severity.read (.text severity.name) = .sound severity := by
  cases severity <;> rfl

namespace ExternalIssue

/-- Members that tell an issue are read as it. -/
theorem readFor_eq_sound {t : Value.Table} {engine ruleId message : String} {line : LineNumber}
    {severity : Severity} (file : InputFile) (hengine : t.get? "engine" = some (.text engine))
    (hrule : t.get? "rule_id" = some (.text ruleId)) (hline : t.get? "line" = some (.int line))
    (hmessage : t.get? "message" = some (.text message))
    (hseverity : t.get? "severity" = some (.text severity.name)) :
    readFor (.sound file) t = .sound ⟨engine, ruleId, file, line, message, severity⟩ := by
  have hengine' : optional t "engine" standardEngine readText = .sound engine :=
    (optional_eq_sound_iff ..).mpr (Or.inr ⟨_, hengine, rfl⟩)
  have hrule' : required t ["rule_id"] readText = .sound ruleId :=
    (required_single_eq_sound_iff ..).mpr ⟨_, hrule, rfl⟩
  have hline' : required t ["line"] (readLineNumber readInt) = .sound line :=
    (required_single_eq_sound_iff ..).mpr
      ⟨_, hline, (readLineNumber_eq_sound_iff readInt _ line).mpr rfl⟩
  have hmessage' : required t ["message"] readText = .sound message :=
    (required_single_eq_sound_iff ..).mpr ⟨_, hmessage, rfl⟩
  have hseverity' : optional t "severity" Severity.warning Severity.read = .sound severity :=
    (optional_eq_sound_iff ..).mpr (Or.inr ⟨_, hseverity, Severity.read_name severity⟩)
  unfold readFor
  rw [hengine', hrule', hline', hmessage', hseverity']
  rfl

/-- An issue made for a line number passes its check. -/
theorem make_line (ruleId : String) (file : InputFile) (line : LineNumber) (message : String)
    (severity : Severity) :
    make ruleId file line message severity =
      .sound ⟨standardEngine, ruleId, file, line, message, severity⟩ :=
  readFor_eq_sound file rfl rfl rfl rfl rfl

end ExternalIssue

namespace Import

open Reconcile (trackedIn trackedFindings)
open Report

variable (files : FileReader) (tracked : FileLookup) (base : Path)

/-! ## The issues of a report -/

/-- The issue that is imported for a finding in a file. -/
def importedIssue (place : InputFile × Finding) : ExternalIssue where
  engine := ExternalIssue.standardEngine
  ruleId := place.2.externalId
  file := place.1
  line := place.2.line
  message := place.2.message
  severity := Severity.ofLabelOr place.2.severity .warning

/-- A finding in a tracked file gives the issue that is imported for it. -/
theorem issueOf_eq_ok (place : InputFile × Finding) :
    issueOf place.1 place.2 = .ok (importedIssue place) := by
  unfold issueOf
  rw [ExternalIssue.make_line]
  rfl

/-- The issues of an entry are those of its findings, if its file is tracked. -/
theorem issuesOfEntry_value (entry : FileFindings) :
    (issuesOfEntry tracked entry).value = .ok ((trackedIn tracked entry).map importedIssue) := by
  unfold issuesOfEntry trackedIn
  cases tracked entry.sourcePath with
  | none => rfl
  | some file =>
    rw [Logged.value_pure, mapM_eq_ok_iff, List.map_map, List.forall₂_map_right_iff,
      List.forall₂_same]
    intro f _
    exact issueOf_eq_ok (file, f)

/-- Every finding of a report in a tracked file is imported, in the order of the report. -/
theorem issuesOfEntries_value (found : List FileFindings) :
    (issuesOfEntries tracked found).value =
      .ok ((trackedFindings tracked found).map importedIssue) := by
  induction found with
  | nil => rfl
  | cons entry entries ih =>
    have hsplit : trackedFindings tracked (entry :: entries) =
        trackedIn tracked entry ++ trackedFindings tracked entries := rfl
    unfold issuesOfEntries
    rw [Logged.value_bind, issuesOfEntry_value]
    show (issuesOfEntries tracked entries).value.map _ = _
    rw [ih, hsplit, List.map_append]
    rfl

/-! ## The issues of report files -/

/-- The issues that come from a report file: none when it cannot be read. -/
def reportIssues (p : Path) : List ExternalIssue :=
  match readReport files p with
  | .error _ => []
  | .ok found => (trackedFindings tracked found).map importedIssue

/-- The issues of a report are those of its entries. -/
theorem issuesOfReport_value (p : Path) :
    (issuesOfReport files tracked p).value = .ok (reportIssues files tracked p) := by
  unfold issuesOfReport reportIssues
  cases readReport files p with
  | error why => rfl
  | ok found =>
    show (issuesOfEntries tracked found >>= _).value = _
    rw [Logged.value_bind, issuesOfEntries_value]
    rfl

/-- What is imported from report files is what comes from each of them, in their order. -/
theorem issues_value (ps : List Path) :
    (issues files tracked base ps).value =
      .ok (ps.flatMap fun p => reportIssues files tracked (base.join p)) := by
  induction ps with
  | nil => rfl
  | cons p ps ih =>
    unfold issues
    rw [Logged.value_bind, issuesOfReport_value]
    show (issues files tracked base ps).value.map _ = _
    rw [ih, List.flatMap_cons]
    rfl

variable {tree : FileTree} {tracked base}

/-- A path that can be read holds no null character. -/
theorem not_holdsNull_of_read {p : Path} {content : ByteArray} (h : tree.read p = .ok content) :
    p.holdsNull = false := by
  by_contra hnull
  have hholds : p.holdsNull = true := by simpa using hnull
  have hlocate : tree.locate p false = .error .nullInName := by
    unfold FileTree.locate
    rw [if_pos hholds]
  unfold FileTree.read FileTree.node at h
  rw [hlocate] at h
  cases h

variable (tracked)

/-- A report file that can be read is imported. -/
theorem all_of_read {p : Path} {content : ByteArray} {found : List FileFindings}
    (hread : tree.read (base.join p) = .ok content) (hfound : Report.ofBytes content = .ok found) :
    ∃ logged, all tree tracked base [p] = .ok logged ∧
      logged.value = .ok ((trackedFindings tracked found).map importedIssue) := by
  have hreport : readReport tree (base.join p) = .ok found := by
    unfold readReport
    rw [hread]
    show (Report.ofBytes content).mapError Unusable.format = _
    rw [hfound]
    rfl
  have hnull : ([p].any fun p => (base.join p).holdsNull) = false := by
    rw [List.any_cons, List.any_nil, not_holdsNull_of_read hread]
    rfl
  refine ⟨issues tree tracked base [p], ?_, ?_⟩
  · unfold all
    rw [hnull]
    rfl
  · rw [issues_value, List.flatMap_cons, List.flatMap_nil, List.append_nil]
    unfold reportIssues
    rw [hreport]

/-! ## Beside reconciling -/

/-- An imported issue and one of a run tell the same: place and message are the same, and the key is
what the rule that was imported resolves to. -/
structure TellsSame (registry : Rule.Registry) (external : ExternalIssue)
    (issue : NormalizedIssue) : Prop where
  file : external.file = issue.file
  line : external.line = issue.line
  message : external.message = issue.message
  key : registry.resolve external.ruleId = some issue.key

/-- An imported issue tells what the issue of the same finding in a run tells. -/
theorem tellsSame_importedIssue {registry : Rule.Registry} {place : InputFile × Finding}
    {issue : NormalizedIssue} (h : Reconcile.IsIssueOf registry place issue) :
    TellsSame registry (importedIssue place) issue where
  file := h.file.symm
  line := h.line.symm
  message := h.message.symm
  key := h.key

/-- A report file whose content is a report, read as bytes or as the text of these, is imported: one
issue comes from each finding in a tracked file, in the order of the report, whatever rules they
name and so also where reconciling stops at one that is unknown. When reconciling the same report
gives issues, they are as many, and each tells the same as the one imported in its place. -/
theorem import_agrees (registry : Rule.Registry) {p : Path} {content : ByteArray}
    {found : List FileFindings} (hread : tree.read (base.join p) = .ok content)
    (hfound : Report.ofBytes content = .ok found ∨
      ∃ text, content = text.toUTF8 ∧ Report.ofText text = .ok found) :
    ∃ logged imported, all tree tracked base [p] = .ok logged ∧ logged.value = .ok imported ∧
      imported = (trackedFindings tracked found).map importedIssue ∧
      ∀ issues, (Reconcile.issues registry tracked found).value = .ok issues →
        imported.length = issues.length ∧ List.Forall₂ (TellsSame registry) imported issues := by
  have hbytes : Report.ofBytes content = .ok found := by
    rcases hfound with hfound | ⟨text, rfl, htext⟩
    · exact hfound
    · rw [Report.ofBytes_toUTF8, htext]
  obtain ⟨logged, hall, hvalue⟩ := all_of_read tracked hread hbytes
  refine ⟨logged, _, hall, hvalue, rfl, ?_⟩
  intro issues hissues
  have heach := (Reconcile.issues_eq_ok_iff registry tracked found issues).mp hissues
  have hsame : List.Forall₂ (TellsSame registry)
      ((trackedFindings tracked found).map importedIssue) issues :=
    List.forall₂_map_left_iff.mpr (heach.imp fun _ _ => tellsSame_importedIssue)
  exact ⟨hsame.length_eq, hsame⟩

/-- A report on one file. -/
def blockReport : String :=
  "[\x7b\"source\":\"/main.css\",\"warnings\":" ++
    "[\x7b\"line\":2,\"text\":\"empty\",\"rule\":\"block-no-empty\"\x7d]\x7d]"

/-- What it says. -/
def blockFindings : List FileFindings :=
  [⟨"/main.css", [⟨"/main.css", ⟨2, by decide⟩, "empty", "block-no-empty", none⟩]⟩]

/-- A tree with that report at the top. -/
def reportTree : FileTree := ⟨.directory [("report.json", .file blockReport.toUTF8 0o644)], []⟩

/-- Only the file of the report is tracked. -/
def trackedStyle : FileLookup
  | "/main.css" => some ⟨⟨.root, ["main.css"]⟩, some "css", rfl⟩
  | _ => none

/-- Only the rule of the report is active. -/
def blockRegistry : Rule.Registry :=
  ⟨[⟨"block-no-empty", ⟨"css", "S4658"⟩, [], .error⟩], by simp⟩

/-- The finding of the report is imported as the issue that reconciling makes of it. -/
theorem import_agrees_blockReport :
    ∃ logged imported, all reportTree trackedStyle ⟨.root, []⟩ [⟨.here, ["report.json"]⟩] =
        .ok logged ∧ logged.value = .ok imported ∧
      ∃ issues, (Reconcile.issues blockRegistry trackedStyle blockFindings).value = .ok issues ∧
        imported.length = issues.length ∧
        List.Forall₂ (TellsSame blockRegistry) imported issues := by
  have hread : reportTree.read (Path.join ⟨.root, []⟩ ⟨.here, ["report.json"]⟩) =
      .ok blockReport.toUTF8 := rfl
  have htext : Report.ofText blockReport = .ok blockFindings := by decide +kernel
  obtain ⟨logged, imported, hall, hvalue, -, hagrees⟩ :=
    import_agrees trackedStyle blockRegistry hread (Or.inr ⟨blockReport, rfl, htext⟩)
  obtain ⟨issues, hissues⟩ : ∃ issues,
      (Reconcile.issues blockRegistry trackedStyle blockFindings).value = .ok issues := ⟨_, rfl⟩
  exact ⟨logged, imported, hall, hvalue, issues, hissues, hagrees issues hissues⟩

end Import

end LintGateway
