import LintGateway.Issue
import LintGateway.Log
import LintGateway.Report.Finding
import LintGateway.Rule.Registry

/-!
# Reconciling findings

A run of the linter reports findings by path and by its own rule identifiers. Reconciling puts
tracked files and host keys in their place. Findings in files that the host does not track are
skipped, whatever rules they name; a finding in a tracked file that names no active rule makes the
whole report useless.
-/

set_option autoImplicit false

namespace LintGateway.Reconcile

open Report

/-- Why a report gives no issues: a finding names no active rule, or makes no valid issue. -/
inductive Failure where
  | unknownRule (error : Rule.Unknown)
  | invalidIssue (faults : List Schema.Fault)

/-- The line that tells about the findings of a file that is not tracked. -/
def skippedLine (entry : FileFindings) : LogLine :=
  { level := .debug
    channel := .reconciliation
    text := "skipping " ++ toString entry.findings.length ++ " finding(s) for untracked file " ++
      entry.sourcePath }

/-- The issue of one finding in a tracked file. -/
def issueOf (registry : Rule.Registry) (file : InputFile) (f : Finding) :
    Except Failure NormalizedIssue :=
  match registry.require f.externalId with
  | .error unknown => .error (.unknownRule unknown)
  | .ok key => (NormalizedIssue.make file f.line f.message key).toExcept.mapError .invalidIssue

/-- The issues of one entry of a report: none for a file that is not tracked. -/
def issuesOfEntry (registry : Rule.Registry) (tracked : FileLookup) (entry : FileFindings) :
    Logged (Except Failure (List NormalizedIssue)) :=
  match tracked entry.sourcePath with
  | some file => pure (entry.findings.mapM (issueOf registry file))
  | none => do
    Logged.say (skippedLine entry)
    return .ok []

/-- The issues of a report in its order. The first finding in a tracked file whose rule is not
active is the error, and nothing after it is looked at. -/
def issues (registry : Rule.Registry) (tracked : FileLookup) :
    List FileFindings → Logged (Except Failure (List NormalizedIssue))
  | [] => pure (.ok [])
  | entry :: entries => do
    match ← issuesOfEntry registry tracked entry with
    | .error e => return .error e
    | .ok here =>
      let later ← issues registry tracked entries
      return later.map (here ++ ·)

end LintGateway.Reconcile
