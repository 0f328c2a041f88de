import LintGateway.Refusal
import LintGateway.Schema.Checked
import LintGateway.Text.Blank
import LintGateway.Text.Case

/-!
# Severities

The linter knows two severities. Hosts and reports name them by labels of their own, which are read
without regard to case and surrounding blanks.
-/

set_option autoImplicit false

namespace LintGateway

/-- How serious the linter takes a rule. -/
inductive Severity where
  | error
  | warning
deriving DecidableEq, Repr

namespace Severity

/-- The severity of a rule for which none is given. -/
def standard : Severity := error

/-- The name of a severity, as the linter spells it. -/
def name : Severity → String
  | error => "error"
  | warning => "warning"

/-- The labels that name a severity. -/
def labels : List (String × Severity) :=
  [("error", error), ("err", error), ("blocker", error), ("critical", error), ("major", error),
    ("warning", warning), ("warn", warning), ("minor", warning), ("info", warning)]

/-- The severity that a label names. -/
def ofLabel? (label : String) : Option Severity := labels.lookup (Text.lower (Text.trim label))

/-- The severity that a label names, or why there is none. -/
def parse (label : String) : Except Refusal Severity :=
  match ofLabel? label with
  | some severity => .ok severity
  | none => .error (.unknownSeverity label)

/-- A label is parsed to the severity that has it. -/
theorem parse_eq_ok_iff {label : String} {severity : Severity} :
    parse label = .ok severity ↔ ofLabel? label = some severity := by
  unfold parse
  cases ofLabel? label <;> simp

/-- The severity that a label names; `fallback` when the label is absent or names none. -/
def ofLabelOr (label : Option String) (fallback : Severity) : Severity :=
  (label.bind ofLabel?).getD fallback

/-- The severity of a name, spelled exactly. -/
def ofName? (text : String) : Option Severity := [error, warning].find? fun s => s.name = text

open Schema in
/-- A severity, given by its name. -/
def read : Value → Checked Severity
  | .text s =>
    match ofName? s with
    | some severity => .sound severity
    | none => Checked.reject .notSeverity (.text s)
  | v => Checked.reject .notSeverity v

end Severity

end LintGateway
