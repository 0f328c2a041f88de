import LintGateway.Schema.Record

/-!
# Findings

What a report says: for each file its path and the findings in it. A finding carries the path of its
file, so a table of findings is given that path before the findings are read.
-/

set_option autoImplicit false

namespace LintGateway.Report

open Schema

/-- One finding of the linter, as reported. -/
structure Finding where
  sourcePath : String
  line : LineNumber
  message : String
  externalId : String
  severity : Option String
deriving DecidableEq, Repr

/-- The findings in one file. -/
structure FileFindings where
  sourcePath : String
  findings : List Finding
deriving DecidableEq, Repr

/-- A finding from its members. -/
def Finding.read (origin : Origin) : Value → Checked Finding :=
  readRecord origin "RawFinding" fun t =>
    Finding.mk <$> required t ["source_path"] readText
      <*> required t ["line"] (readLineNumber readStrictInt)
      <*> required t ["text", "message"] readText
      <*> required t ["rule", "external_rule_id"] readText
      <*> optional t "severity" none (readOptional readText)

namespace FileFindings

/-- The names of the member that holds the path of the file. -/
def sourceNames : List String := ["source", "source_path"]

/-- The names of the member that holds the findings. -/
def findingsNames : List String := ["warnings", "findings"]

/-- A finding with the path of its file; what is no record stays as it is. -/
def stamp (source : String) : Value → Value
  | .record t => .record (Members.put t "source_path" (.text source))
  | v => v

/-- The members with the path of the file copied onto each finding. -/
def shareSource (t : Value.Table) : Value.Table :=
  match findMember t sourceNames, findMember t findingsNames with
  | some (_, .text source), some (name, .list findings) =>
    t.put name (.list (findings.map (stamp source)))
  | _, _ => t

/-- The findings in one file from their members. -/
def read (origin : Origin) : Value → Checked FileFindings :=
  readRecord origin "PerFileFindings" fun t =>
    let t := shareSource t
    FileFindings.mk <$> required t sourceNames readText
      <*> required t findingsNames (readSequence origin (Finding.read origin))

end FileFindings

end LintGateway.Report
