import LintGateway.FileTree.Basic
import LintGateway.Issue
import LintGateway.Log
import LintGateway.Report.Reader

/-!
# Importing reports

Reports made elsewhere are imported file by file. Their findings need not name active rules; those
in files that the host does not track are left out. A report that cannot be read is skipped as a
whole, and the others are imported all the same.
-/

set_option autoImplicit false

namespace LintGateway.Import

open Report

/-- Why a report file is skipped. -/
inductive Unusable where
  | file (error : FileError)
  | format (error : FormatError)

/-- The sentence that says why the report file at a path is skipped. -/
def Unusable.message (p : Path) : Unusable → String
  | file e => "[Errno " ++ toString e.number ++ "] " ++ e.message ++ ": " ++ Text.quoted p.toText
  | format e => e.message

/-- The findings of a report file. -/
def readReport (files : FileReader) (p : Path) : Except Unusable (List FileFindings) :=
  match files p with
  | .error e => .error (.file e)
  | .ok bytes => (Report.ofBytes bytes).mapError .format

/-- A line of the log of imports. -/
def line (level : LogLevel) (text : String) : LogLine :=
  { level := level, channel := .reportImport, text := text }

/-- The line that tells about a file that is not tracked. -/
def untrackedLine (source : String) : LogLine :=
  line .warning
    ("No input file found for " ++ source ++
      ". No stylelint issues will be imported on this file.")

/-- The line that tells about a report that is skipped. -/
def skippedLine (p : Path) (why : Unusable) : LogLine :=
  line .warning
    ("No issues information will be saved as the report file '" ++ p.toText ++
      "' can't be read: " ++ why.message p)

/-- The line that tells how much came from a report. -/
def importedLine (p : Path) (count : Nat) : LogLine :=
  line .debug ("imported " ++ toString count ++ " issue(s) from " ++ p.toText)

/-- The issue of one finding in a tracked file, or what is wrong with it; a severity that is absent
or unknown is a warning. -/
def issueOf (file : InputFile) (f : Finding) : Except (List Schema.Fault) ExternalIssue :=
  (ExternalIssue.make f.externalId file f.line f.message
    (Severity.ofLabelOr f.severity .warning)).toExcept

/-- The issues of one entry of a report: none for a file that is not tracked. -/
def issuesOfEntry (tracked : FileLookup) (entry : FileFindings) :
    Logged (Except (List Schema.Fault) (List ExternalIssue)) :=
  match tracked entry.sourcePath with
  | some file => pure (entry.findings.mapM (issueOf file))
  | none => do
    Logged.say (untrackedLine entry.sourcePath)
    return .ok []

/-- The issues of the entries of a report in their order. -/
def issuesOfEntries (tracked : FileLookup) :
    List FileFindings → Logged (Except (List Schema.Fault) (List ExternalIssue))
  | [] => pure (.ok [])
  | entry :: entries => do
    match ← issuesOfEntry tracked entry with
    | .error faults => return .error faults
    | .ok here =>
      let later ← issuesOfEntries tracked entries
      return later.map (here ++ ·)

/-- The issues of the report file at a path, none when it cannot be used. -/
def issuesOfReport (files : FileReader) (tracked : FileLookup) (p : Path) :
    Logged (Except (List Schema.Fault) (List ExternalIssue)) :=
  match readReport files p with
  | .error why => do
    Logged.say (skippedLine p why)
    return .ok []
  | .ok entries => do
    match ← issuesOfEntries tracked entries with
    | .error faults => return .error faults
    | .ok found =>
      Logged.say (importedLine p found.length)
      return .ok found

/-- The issues of a list of report files in its order; relative paths start at `base`. -/
def issues (files : FileReader) (tracked : FileLookup) (base : Path) :
    List Path → Logged (Except (List Schema.Fault) (List ExternalIssue))
  | [] => pure (.ok [])
  | p :: ps => do
    match ← issuesOfReport files tracked (base.join p) with
    | .error faults => return .error faults
    | .ok here =>
      let later ← issues files tracked base ps
      return later.map (here ++ ·)

/-- The issues of a list of report files, provided that each of their paths can be that of a file.
-/
def all (files : FileReader) (tracked : FileLookup) (base : Path) (ps : List Path) :
    Except FileError (Logged (Except (List Schema.Fault) (List ExternalIssue))) :=
  if ps.any fun p => (base.join p).holdsNull then .error .nullInName
  else .ok (issues files tracked base ps)

end LintGateway.Import
