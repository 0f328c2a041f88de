import LintGateway.Text.Blank
import LintGateway.Text.Case

/-!
# File suffixes

Files are chosen by suffix. A list of suffixes has one normal form: lower case, no blanks around, a
dot in front, blank entries dropped and each suffix once, where it comes first.
-/

set_option autoImplicit false

namespace LintGateway.Suffix

/-- The normal form of one suffix; nothing for a blank one. -/
def normal? (raw : String) : Option String :=
  let s := Text.lower (Text.trim raw)
  if s.isEmpty then none
  else if s.toList.head? = some '.' then some s
  else some ("." ++ s)

/-- Each entry once, where it comes first; `seen` holds those that came before. -/
def firstOccurrences (seen : List String) : List String → List String
  | [] => []
  | s :: rest =>
    if s ∈ seen then firstOccurrences seen rest else s :: firstOccurrences (s :: seen) rest

/-- The normal form of a list of suffixes. -/
def normalize (raw : List String) : List String := firstOccurrences [] (raw.filterMap normal?)

end LintGateway.Suffix
