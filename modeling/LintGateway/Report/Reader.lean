import LintGateway.Json.Reader
import LintGateway.Report.Finding
import LintGateway.Report.FormatError
import LintGateway.Text.Blank
import LintGateway.Text.Utf8

/-!
# Reading reports

A report is a JSON array with one entry for each file. It is read as a whole or not at all: the
first thing wrong with it, in the order of the document, is the error.
-/

set_option autoImplicit false

namespace LintGateway.Report

open Schema

/-- The findings of a JSON document, file by file. -/
def ofDocument (v : Value) : Checked (List FileFindings) :=
  readSequence .document (FileFindings.read .document) v

/-- The text without the byte order marks at its start. -/
def dropMarks (s : String) : String := String.ofList (s.toList.dropWhile (· = '\ufeff'))

/-- The findings of a report given as text. -/
def ofText (s : String) : Except FormatError (List FileFindings) :=
  if Text.isBlankText s then .error { reason := "report is empty" }
  else
    let document := dropMarks s
    match Json.read? document with
    | none =>
      .error { reason := "Invalid JSON", location := locationText [], fragment := excerpt document }
    | some v =>
      match ofDocument v with
      | .sound findings => .ok findings
      | .faulty first _ => .error (FormatError.ofFault first)

/-- How many bytes are shown where a report stops being UTF-8. -/
def shownBytes : Nat := 16

/-- The findings of a report given as bytes. -/
def ofBytes (bytes : ByteArray) : Except FormatError (List FileFindings) :=
  match Text.decode bytes with
  | .ok s => ofText s
  | .error stop =>
    .error
      { reason := "report is not valid utf-8"
        location := "byte " ++ toString stop
        fragment := excerpt (Text.quotedBytes (bytes.extract stop (stop + shownBytes))) }

end LintGateway.Report
