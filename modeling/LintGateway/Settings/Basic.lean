import LintGateway.Schema.Record
import LintGateway.Tracked.Suffix

/-!
# Settings

What a project can set: which files are style sheets, which reports to import, how long the linter
may take, and whether a report counts when the linter ends with a failure status. Settings with a
member of any other name are refused.
-/

set_option autoImplicit false

namespace LintGateway

open Schema

/-- The settings of a project. -/
structure Settings where
  fileSuffixes : List String
  reportPaths : List Path
  timeout : Option Float
  acceptNonzeroExit : Bool

namespace Settings

/-- The settings of a project that sets nothing. -/
def standard : Settings :=
  { fileSuffixes := [".css", ".less", ".scss"], reportPaths := [], timeout := none
    acceptNonzeroExit := true }

/-- The entries of a list written as one text with commas; blank ones do not count. -/
def splitList (s : String) : List String :=
  ((Text.split ',' s).map Text.trim).filter (· ≠ "")

/-- File suffixes, as one text with commas, as a sequence of anything that has a text, or as the
names of a record. -/
def readSuffixes (v : Value) : Checked (List String) :=
  let ofItems (items : List Value) : Checked (List String) :=
    if items.all Value.isWritable then .sound (Suffix.normalize (items.map Value.toText))
    else Checked.reject (.refused (Decimal.tooManyDigits none)) v
  match v with
  | .text s => .sound (Suffix.normalize (splitList s))
  | .list items => ofItems items
  | .tuple items => ofItems items
  | .record t => .sound (Suffix.normalize (t.map Prod.fst))
  | v => Checked.reject (.notSequence .program) v

/-- Paths, as one text with commas or as a sequence of texts. -/
def readPaths : Value → Checked (List Path)
  | .text s => .sound ((splitList s).map Path.ofText)
  | v => readSequence .program readPath v

/-- The names of the members that settings may have. -/
def memberNames : List String := ["file_suffixes", "report_paths", "timeout", "accept_nonzero_exit"]

/-- Settings from a table. -/
def readTable (t : Value.Table) : Checked Settings :=
  (fun suffixes paths timeout accept _ => Settings.mk suffixes paths timeout accept)
    <$> optional t "file_suffixes" standard.fileSuffixes readSuffixes
    <*> optional t "report_paths" standard.reportPaths readPaths
    <*> optional t "timeout" standard.timeout (readOptional readDuration)
    <*> optional t "accept_nonzero_exit" standard.acceptNonzeroExit readBool
    <*> onlyKnown memberNames t

/-- Settings from their members. -/
def read : Value → Checked Settings := readRecord .program "BridgeSettings" readTable

end Settings

end LintGateway
