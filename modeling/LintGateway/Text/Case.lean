import LintGateway.Text.CaseTable

/-!
# Lower-casing

Labels and file suffixes are compared in lower case. The mapping is the full one of Unicode 14:
most characters have a one-character form from the table of runs, the capital I with a dot becomes
two characters, and the capital sigma takes its final form at the end of a word.
-/

set_option autoImplicit false

namespace LintGateway.Text

/-- The lower-case code point of `n` by the runs of `table`, `n` itself when no run holds it. -/
def lowerCodePoint (table : List CaseRun) (n : Nat) : Nat :=
  match table.find? fun r => r.first ≤ n && n ≤ r.last with
  | some r => if (n - r.first) % r.stride = 0 then r.image + (n - r.first) else n
  | none => n

/-- Whether a code point lies in one of `ranges`, both ends included. -/
def inRanges (ranges : List (Nat × Nat)) (c : Char) : Bool :=
  ranges.any fun r => r.1 ≤ c.toNat && c.toNat ≤ r.2

/-- Whether the nearest character that is not looked through has case. -/
def meetsCased (cs : List Char) : Bool :=
  match cs.dropWhile (inRanges caseIgnorableRanges) with
  | c :: _ => inRanges casedRanges c
  | [] => false

/-- The lower-case form of one character between the text `before` it, nearest first, and the
text `after` it. -/
def lowerChar (before : List Char) (c : Char) (after : List Char) : List Char :=
  if c.toNat < 0x80 then [c.toLower]
  else if c = 'Σ' then [if meetsCased before && !meetsCased after then 'ς' else 'σ']
  else if c = 'İ' then ['i', '\u0307']
  else [Char.ofNat (lowerCodePoint caseRuns c.toNat)]

/-- Lower-case forms of the characters of a text that follows `before`, nearest first. -/
def lowerChars (before : List Char) : List Char → List Char
  | [] => []
  | c :: after => lowerChar before c after ++ lowerChars (c :: before) after

/-- A text in lower case. -/
def lower (s : String) : String := String.ofList (lowerChars [] s.toList)

end LintGateway.Text
