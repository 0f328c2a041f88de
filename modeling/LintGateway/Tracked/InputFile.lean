import LintGateway.Refusal
import LintGateway.Schema.Record

/-!
# Tracked files

The host analyses a set of source files, each known by its absolute path and, when it is clear, by
its language.
-/

set_option autoImplicit false

namespace LintGateway

open Schema

/-- A source file that the host tracks. -/
structure InputFile where
  path : Path
  language : Option String
  isAbsolute : path.isAbsolute = true
deriving DecidableEq

/-- How the tracked file of a path text is found, if there is one. -/
abbrev FileLookup := String → Option InputFile

namespace InputFile

/-- The text of the path of a file. -/
def toText (f : InputFile) : String := f.path.toText

/-- A path that is absolute. -/
def readAbsolute (v : Value) : Checked { p : Path // p.isAbsolute = true } :=
  (readPath v).andThen fun p =>
    if h : p.isAbsolute = true then .sound ⟨p, h⟩
    else Checked.reject (.refused (Refusal.relativeInput p.toText).message) v

/-- A tracked file from its members. -/
def read : Value → Checked InputFile :=
  readRecord .program "InputFile" fun t =>
    (fun p language => ⟨p.val, language, p.property⟩)
      <$> required t ["path"] readAbsolute
      <*> optional t "language" none (readOptional readText)

/-- The language of a file by the suffix of its name in lower case. -/
def languages : List (String × String) :=
  [(".css", "css"), (".less", "less"), (".scss", "scss"), (".sass", "sass")]

end InputFile

end LintGateway
