import LintGateway.Proofs.Traversal
import LintGateway.Reconcile

/-!
# Reconciling as one walk

Reconciling goes through the entries of a report and, in each tracked file, through its findings.
Both walks together are one: along the findings in tracked files (`trackedFindings`), in the order
of the report. That walk succeeds exactly when the registry resolves the rule of each of them, and
otherwise stops at the first one it does not resolve. No finding stops it in another way: its line is
a line number already, so the check made once more on the issue passes. `issues_one_each` says so of
a whole report, and what follows for reports that are put together or differ where nothing is tracked.
-/

set_option autoImplicit false

namespace LintGateway

open Schema

/-- The issue of a line number passes its check. -/
theorem NormalizedIssue.make_line (file : InputFile) (line : LineNumber) (message : String)
    (key : Rule.Key) :
    NormalizedIssue.make file line message key = .sound ⟨file, line, message, key⟩ := by
  have hline : required [("line", Value.int line), ("message", Value.text message)] ["line"]
      (readLineNumber readInt) = .sound line := by
    rw [required_eq_sound_iff]
    exact ⟨"line", .int line, rfl, (readLineNumber_eq_sound_iff readInt _ line).mpr rfl⟩
  have hmessage : required [("line", Value.int line), ("message", Value.text message)] ["message"]
      readText = .sound message := by
    rw [required_eq_sound_iff]
    exact ⟨"message", .text message, rfl, rfl⟩
  unfold NormalizedIssue.make NormalizedIssue.readFor
  rw [hline, hmessage]
  rfl

namespace Reconcile

open Report

variable (registry : Rule.Registry) (tracked : FileLookup)

/-! ## One finding -/

/-- A finding in a file and the issue made from it: the place and the message are those of the
finding, and the key is what its rule resolves to. -/
structure IsIssueOf (place : InputFile × Finding) (issue : NormalizedIssue) : Prop where
  file : issue.file = place.1
  line : issue.line = place.2.line
  message : issue.message = place.2.message
  key : registry.resolve place.2.externalId = some issue.key

/-- A finding makes an issue exactly when its rule resolves. -/
theorem exists_isIssueOf_iff (place : InputFile × Finding) :
    (∃ issue, IsIssueOf registry place issue) ↔
      ∃ key, registry.resolve place.2.externalId = some key := by
  constructor
  · rintro ⟨issue, hissue⟩
    exact ⟨_, hissue.key⟩
  · rintro ⟨key, hkey⟩
    exact ⟨⟨place.1, place.2.line, place.2.message, key⟩, rfl, rfl, rfl, hkey⟩

/-- A finding whose rule resolves becomes an issue with that key. -/
theorem issueOf_of_resolve_eq_some {f : Finding} {key : Rule.Key}
    (h : registry.resolve f.externalId = some key) (file : InputFile) :
    issueOf registry file f = .ok ⟨file, f.line, f.message, key⟩ := by
  unfold issueOf Rule.Registry.require
  rw [h]
  show (NormalizedIssue.make file f.line f.message key).toExcept.mapError Failure.invalidIssue = _
  rw [NormalizedIssue.make_line]
  rfl

/-- A finding whose rule does not resolve fails with the name of the rule. -/
theorem issueOf_of_resolve_eq_none {f : Finding} (h : registry.resolve f.externalId = none)
    (file : InputFile) : issueOf registry file f = .error (.unknownRule ⟨f.externalId⟩) := by
  unfold issueOf Rule.Registry.require
  rw [h]

/-- A finding gives an issue exactly when the issue is one of it. -/
theorem issueOf_eq_ok_iff (place : InputFile × Finding) (issue : NormalizedIssue) :
    issueOf registry place.1 place.2 = .ok issue ↔ IsIssueOf registry place issue := by
  constructor
  · intro h
    cases hkey : registry.resolve place.2.externalId with
    | none =>
      rw [issueOf_of_resolve_eq_none registry hkey] at h
      cases h
    | some key =>
      rw [issueOf_of_resolve_eq_some registry hkey] at h
      obtain rfl := Except.ok.inj h
      exact ⟨rfl, rfl, rfl, hkey⟩
  · intro h
    rw [issueOf_of_resolve_eq_some registry h.key, ← h.file, ← h.line, ← h.message]

/-- A finding gives no issue exactly when its rule does not resolve, and this is the failure. -/
theorem issueOf_eq_error_iff (place : InputFile × Finding) (e : Failure) :
    issueOf registry place.1 place.2 = .error e ↔
      registry.resolve place.2.externalId = none ∧ e = .unknownRule ⟨place.2.externalId⟩ := by
  cases hkey : registry.resolve place.2.externalId with
  | none => simp [issueOf_of_resolve_eq_none registry hkey, eq_comm]
  | some key => simp [issueOf_of_resolve_eq_some registry hkey]

/-! ## All findings -/

/-- The findings of one entry with their file; none when the file is not tracked. -/
def trackedIn (entry : FileFindings) : List (InputFile × Finding) :=
  match tracked entry.sourcePath with
  | some file => entry.findings.map fun f => (file, f)
  | none => []

/-- The findings of a report in tracked files, each with its file, in the order of the report. -/
def trackedFindings (found : List FileFindings) : List (InputFile × Finding) :=
  found.flatMap (trackedIn tracked)

/-- The tracked findings are those of the entries whose file is tracked. -/
theorem mem_trackedFindings_iff (found : List FileFindings) (place : InputFile × Finding) :
    place ∈ trackedFindings tracked found ↔
      ∃ entry ∈ found, tracked entry.sourcePath = some place.1 ∧ place.2 ∈ entry.findings := by
  unfold trackedFindings
  rw [List.mem_flatMap]
  refine exists_congr fun entry => and_congr_right fun _ => ?_
  unfold trackedIn
  cases htracked : tracked entry.sourcePath with
  | none => simp
  | some file =>
    rw [List.mem_map]
    constructor
    · rintro ⟨f, hf, rfl⟩
      exact ⟨rfl, hf⟩
    · rintro ⟨hfile, hf⟩
      exact ⟨place.2, hf, by rw [Option.some.inj hfile]⟩

/-- One entry is a walk along its findings, if its file is tracked. -/
theorem issuesOfEntry_value (entry : FileFindings) :
    (issuesOfEntry registry tracked entry).value =
      (trackedIn tracked entry).mapM fun place => issueOf registry place.1 place.2 := by
  unfold issuesOfEntry trackedIn
  cases tracked entry.sourcePath with
  | none => rfl
  | some file =>
    rw [List.mapM_map]
    rfl

/-- A report is one walk along its findings in tracked files. -/
theorem issues_value (found : List FileFindings) :
    (issues registry tracked found).value =
      (trackedFindings tracked found).mapM fun place => issueOf registry place.1 place.2 := by
  induction found with
  | nil => rfl
  | cons entry entries ih =>
    have hsplit : trackedFindings tracked (entry :: entries) =
        trackedIn tracked entry ++ trackedFindings tracked entries := rfl
    rw [hsplit, List.mapM_append, ← ih, ← issuesOfEntry_value]
    generalize hlater : issues registry tracked entries = later
    unfold issues
    rw [hlater, Logged.value_bind]
    cases (issuesOfEntry registry tracked entry).value with
    | error e => rfl
    | ok here =>
      rw [Logged.value_bind, Logged.value_pure]
      cases later.value <;> rfl

/-- A report gives issues exactly when each of its findings in tracked files has one, and then gives
those, in the order of the report. -/
theorem issues_eq_ok_iff (found : List FileFindings) (issues : List NormalizedIssue) :
    (Reconcile.issues registry tracked found).value = .ok issues ↔
      List.Forall₂ (IsIssueOf registry) (trackedFindings tracked found) issues := by
  rw [issues_value, mapM_eq_ok_iff]
  simp only [issueOf_eq_ok_iff]

/-- A report fails with the name of the rule of its first finding in a tracked file that does not
resolve, and in no other way. -/
theorem issues_eq_error_iff (found : List FileFindings) (e : Failure) :
    (issues registry tracked found).value = .error e ↔
      ∃ before place after, trackedFindings tracked found = before ++ place :: after ∧
        (∀ p ∈ before, ∃ key, registry.resolve p.2.externalId = some key) ∧
        registry.resolve place.2.externalId = none ∧ e = .unknownRule ⟨place.2.externalId⟩ := by
  rw [issues_value, mapM_eq_error_iff]
  simp only [issueOf_eq_ok_iff, exists_isIssueOf_iff, issueOf_eq_error_iff]

/-- The error of a report names the rule of a finding in a tracked file. -/
theorem unresolved_of_issues_eq_error {registry : Rule.Registry} {tracked : FileLookup}
    {found : List FileFindings} {e : Failure}
    (h : (issues registry tracked found).value = .error e) :
    ∃ place ∈ trackedFindings tracked found,
      registry.resolve place.2.externalId = none ∧ e = .unknownRule ⟨place.2.externalId⟩ := by
  obtain ⟨before, place, after, hplaces, -, hrule, he⟩ :=
    (issues_eq_error_iff registry tracked found e).mp h
  refine ⟨place, ?_, hrule, he⟩
  rw [hplaces]
  exact List.mem_append_right before List.mem_cons_self

/-- Every report whose findings in tracked files all resolve gives issues. -/
theorem exists_issues_iff (found : List FileFindings) :
    (∃ issues, (Reconcile.issues registry tracked found).value = .ok issues) ↔
      ∀ place ∈ trackedFindings tracked found,
        ∃ key, registry.resolve place.2.externalId = some key := by
  simp only [issues_eq_ok_iff, exists_forall₂_iff, exists_isIssueOf_iff]

/-- No report with a finding in a tracked file that does not resolve gives issues. -/
theorem issues_ne_ok {registry : Rule.Registry} {tracked : FileLookup} {found : List FileFindings}
    {place : InputFile × Finding} (hplace : place ∈ trackedFindings tracked found)
    (hrule : registry.resolve place.2.externalId = none) (issues : List NormalizedIssue) :
    (Reconcile.issues registry tracked found).value ≠ .ok issues := by
  intro h
  obtain ⟨key, hkey⟩ := (exists_issues_iff registry tracked found).mp ⟨issues, h⟩ place hplace
  rw [hrule] at hkey
  cases hkey

/-! ## Reports put together, and what is not tracked -/

/-- The tracked findings of entries in a row are those of the parts. -/
theorem trackedFindings_append (found more : List FileFindings) :
    trackedFindings tracked (found ++ more) =
      trackedFindings tracked found ++ trackedFindings tracked more := List.flatMap_append

/-- The entries of a report whose file is tracked. -/
def trackedEntries (found : List FileFindings) : List FileFindings :=
  found.filter fun entry => (tracked entry.sourcePath).isSome

/-- Only tracked entries have findings in tracked files. -/
theorem trackedFindings_trackedEntries (found : List FileFindings) :
    trackedFindings tracked (trackedEntries tracked found) = trackedFindings tracked found := by
  unfold trackedFindings trackedEntries
  induction found with
  | nil => rfl
  | cons entry entries ih =>
    rw [List.filter_cons, List.flatMap_cons]
    cases htracked : tracked entry.sourcePath with
    | none =>
      have hnothing : trackedIn tracked entry = [] := by
        unfold trackedIn
        rw [htracked]
      rw [hnothing, List.nil_append, ← ih]
      rfl
    | some file =>
      show (entry :: _).flatMap _ = _
      rw [List.flatMap_cons, ih]

/-- Two reports in a row give the issues of both, and the error of the first goes before that of the
second. -/
theorem issues_append (found more : List FileFindings) :
    (issues registry tracked (found ++ more)).value = (do
      let here ← (issues registry tracked found).value
      let later ← (issues registry tracked more).value
      return here ++ later) := by
  simp only [issues_value, trackedFindings_append, List.mapM_append]

/-- Reports with the same tracked entries have the same outcome. -/
theorem issues_congr {found other : List FileFindings}
    (h : trackedEntries tracked other = trackedEntries tracked found) :
    (issues registry tracked other).value = (issues registry tracked found).value := by
  rw [issues_value, issues_value, ← trackedFindings_trackedEntries tracked other, h,
    trackedFindings_trackedEntries]

/-- What is said of all tracked findings is said of all findings in tracked files. -/
theorem forall_trackedFindings_iff (found : List FileFindings) (p : Finding → Prop) :
    (∀ place ∈ trackedFindings tracked found, p place.2) ↔
      ∀ entry ∈ found, (tracked entry.sourcePath).isSome → ∀ f ∈ entry.findings, p f := by
  constructor
  · intro h entry hentry htracked f hf
    obtain ⟨file, hfile⟩ := Option.isSome_iff_exists.mp htracked
    exact h (file, f) ((mem_trackedFindings_iff tracked found _).mpr ⟨entry, hentry, hfile, hf⟩)
  · intro h place hplace
    obtain ⟨entry, hentry, hfile, hf⟩ := (mem_trackedFindings_iff tracked found place).mp hplace
    exact h entry hentry (Option.isSome_iff_exists.mpr ⟨_, hfile⟩) place.2 hf

/-- A report gives issues exactly when the registry resolves the rule of every finding in its
tracked entries, and then one for each of these findings, in the order of the report. Otherwise it
fails with the name of the first rule among them that is not resolved. So two reports in a row give
the issues of both, the error of the first winning, and what stands in entries that are not tracked
makes no difference. -/
theorem issues_one_each (found : List FileFindings) :
    ((∃ issues, (Reconcile.issues registry tracked found).value = .ok issues) ↔
      ∀ entry ∈ found, (tracked entry.sourcePath).isSome →
        ∀ f ∈ entry.findings, ∃ key, registry.resolve f.externalId = some key) ∧
    (∀ issues, (Reconcile.issues registry tracked found).value = .ok issues ↔
      List.Forall₂ (IsIssueOf registry) (trackedFindings tracked found) issues) ∧
    (∀ e, (issues registry tracked found).value = .error e ↔
      ∃ before place after, trackedFindings tracked found = before ++ place :: after ∧
        (∀ p ∈ before, ∃ key, registry.resolve p.2.externalId = some key) ∧
        registry.resolve place.2.externalId = none ∧
        e = .unknownRule ⟨place.2.externalId⟩) ∧
    (∀ more, (issues registry tracked (found ++ more)).value = (do
      let here ← (issues registry tracked found).value
      let later ← (issues registry tracked more).value
      return here ++ later)) ∧
    ∀ other, trackedEntries tracked other = trackedEntries tracked found →
      (issues registry tracked other).value = (issues registry tracked found).value := by
  refine ⟨?_, issues_eq_ok_iff registry tracked found, issues_eq_error_iff registry tracked found,
    issues_append registry tracked found, fun _ => issues_congr registry tracked⟩
  rw [exists_issues_iff]
  exact forall_trackedFindings_iff tracked found fun f =>
    ∃ key, registry.resolve f.externalId = some key

end Reconcile

end LintGateway
