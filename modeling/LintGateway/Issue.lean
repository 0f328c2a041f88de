import LintGateway.Rule.Key
import LintGateway.Severity
import LintGateway.Tracked.InputFile

/-!
# Issues

What the host gets to see. A normalized issue comes from a run of the linter and names an active
rule by the host's key; an external issue comes from a report made elsewhere and keeps the rule name
of that report. Both stand at a line of a tracked file.
-/

set_option autoImplicit false

namespace LintGateway

open Schema

/-- An issue of an active rule. -/
structure NormalizedIssue where
  file : InputFile
  line : LineNumber
  message : String
  key : Rule.Key
deriving DecidableEq

/-- An issue of a report made elsewhere. -/
structure ExternalIssue where
  engine : String
  ruleId : String
  file : InputFile
  line : LineNumber
  message : String
  severity : Severity
deriving DecidableEq

/-- The name of the linter whose reports are imported. -/
def ExternalIssue.standardEngine : String := "stylelint"

namespace NormalizedIssue

/-- An issue from its line and message, for a file and a key that have been read before. -/
def readFor (file : Checked InputFile) (key : Checked Rule.Key) (t : Value.Table) :
    Checked NormalizedIssue :=
  NormalizedIssue.mk <$> file
    <*> required t ["line"] (readLineNumber readInt)
    <*> required t ["message"] readText
    <*> key

/-- An issue from its members. -/
def read : Value → Checked NormalizedIssue :=
  readRecord .program "NormalizedIssue" fun t =>
    readFor (required t ["file"] InputFile.read) (required t ["rule_key"] Rule.Key.read) t

/-- An issue from its parts, checked like one that comes as data. -/
def make (file : InputFile) (line : Nat) (message : String) (key : Rule.Key) :
    Checked NormalizedIssue :=
  readFor (.sound file) (.sound key) [("line", .int line), ("message", .text message)]

end NormalizedIssue

namespace ExternalIssue

/-- An issue from its other members, for a file that has been read before. -/
def readFor (file : Checked InputFile) (t : Value.Table) : Checked ExternalIssue :=
  ExternalIssue.mk <$> optional t "engine" standardEngine readText
    <*> required t ["rule_id"] readText
    <*> file
    <*> required t ["line"] (readLineNumber readInt)
    <*> required t ["message"] readText
    <*> optional t "severity" Severity.warning Severity.read

/-- An issue from its members. -/
def read : Value → Checked ExternalIssue :=
  readRecord .program "ExternalIssue" fun t => readFor (required t ["file"] InputFile.read) t

/-- An issue of the standard engine from its parts, checked like one that comes as data. -/
def make (ruleId : String) (file : InputFile) (line : Nat) (message : String)
    (severity : Severity) : Checked ExternalIssue :=
  readFor (.sound file)
    [("engine", .text standardEngine), ("rule_id", .text ruleId), ("line", .int line),
      ("message", .text message), ("severity", .text severity.name)]

end ExternalIssue

/-- An issue of either kind. -/
inductive Issue where
  | normalized (issue : NormalizedIssue)
  | external (issue : ExternalIssue)
deriving DecidableEq

namespace Issue

/-- The file of an issue. -/
def file : Issue → InputFile
  | normalized i => i.file
  | external i => i.file

/-- The line of an issue. -/
def line : Issue → LineNumber
  | normalized i => i.line
  | external i => i.line

/-- The message of an issue. -/
def message : Issue → String
  | normalized i => i.message
  | external i => i.message

/-- The name of the rule of an issue: the key, or the engine with its own rule name. -/
def label : Issue → String
  | normalized i => i.key.toText
  | external i => "external_" ++ i.engine ++ ":" ++ i.ruleId

/-- Whether an issue is one to be alarmed about: an error that was reported elsewhere. -/
def isSevere : Issue → Bool
  | normalized _ => false
  | external i => i.severity = .error

/-- An issue on one line: place, rule and message. -/
def toText (i : Issue) : String :=
  i.file.toText ++ ":" ++ toString i.line.val ++ " [" ++ i.label ++ "] " ++ i.message

end Issue

end LintGateway
