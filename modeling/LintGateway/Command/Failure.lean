import LintGateway.Report.FormatError
import LintGateway.Text.Blank

/-!
# Commands that fail

A command can fail to start, or start and not end as it should. The first names what is in the way;
the second carries the exit status and what the command said on its error stream.
-/

set_option autoImplicit false

namespace LintGateway

/-- A command that could not be started. -/
structure LaunchError where
  command : List String
  reason : String
deriving DecidableEq, Repr

/-- The sentence that names the command and the reason. -/
def LaunchError.message (e : LaunchError) : String :=
  "Failed to run external process '" ++ " ".intercalate e.command ++ "': " ++ e.reason

/-- What made a command count as failed, apart from its exit status. -/
inductive ExecutionCause where
  | timeout
  | report (error : Report.FormatError)
deriving DecidableEq, Repr

/-- A command that was started and did not end as it should. -/
structure ExecutionError where
  command : List String
  status : Int
  stderr : Option String := none
  detail : Option String := none
  cause : Option ExecutionCause := none
deriving DecidableEq, Repr

namespace ExecutionError

/-- What is shown of an error stream: its text without the blanks around it, if there is any. -/
def shownStderr (stderr : Option String) : String :=
  let shown := Text.trim (stderr.getD "")
  if shown.isEmpty then "<none>" else shown

/-- The sentence with the exit status, the error stream and the detail, if there is one. -/
def message (e : ExecutionError) : String :=
  let detail := e.detail.getD ""
  "External process '" ++ " ".intercalate e.command ++ "' exited with status " ++
    toString e.status ++ ". stderr: " ++ shownStderr e.stderr ++
    (if detail.isEmpty then "" else " (" ++ detail ++ ")")

end ExecutionError

end LintGateway
