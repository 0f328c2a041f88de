import LintGateway.Schema.Fault

/-!
# Malformed reports

Why a report cannot be used: the reason, the place in the report and an excerpt of what stands
there. Places are written like `[0].warnings[1].line`, and excerpts are cut to a length that fits a
message.
-/

set_option autoImplicit false

namespace LintGateway.Report

/-- Why a report cannot be used. -/
structure FormatError where
  reason : String
  location : String := ""
  fragment : String := ""
deriving DecidableEq, Repr

namespace FormatError

/-- The sentence with the reason, the place and the excerpt, as far as they are known. -/
def message (e : FormatError) : String :=
  "Malformed linter report: " ++ e.reason ++
    (if e.location.isEmpty then "" else " at " ++ e.location) ++
    (if e.fragment.isEmpty then "" else " near " ++ Text.quoted e.fragment)

end FormatError

open Schema

/-- Adds one step to the text of a place; the first name stands without a dot. -/
def addStep (rendered : String) : Step → String
  | .item index => rendered ++ "[" ++ toString index ++ "]"
  | .member name => if rendered.isEmpty then name else rendered ++ "." ++ name

/-- The text of a place; the top of a report has a name of its own. -/
def locationText (location : Location) : String :=
  let rendered := location.foldl addStep ""
  if rendered.isEmpty then "<root>" else rendered

/-- How many characters of an excerpt are shown. -/
def fragmentLimit : Nat := 120

/-- A text cut to the length of an excerpt. -/
def excerpt (s : String) : String :=
  if fragmentLimit < s.length then String.ofList (s.toList.take fragmentLimit) ++ "..." else s

/-- The excerpt of a value: a text as it is, anything else by its description. -/
def fragmentOf : Value → String
  | .text s => excerpt s
  | v => excerpt v.describe

/-- The error for a fault found in a report. -/
def FormatError.ofFault (f : Fault) : FormatError :=
  { reason := f.complaint.message
    location := locationText f.location
    fragment := fragmentOf f.found }

end LintGateway.Report
