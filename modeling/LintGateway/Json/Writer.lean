import LintGateway.Decimal.Numeral
import LintGateway.Value.Basic
import LintGateway.Text.Quoted

/-!
# Writing JSON

The compact form in which configuration documents are written: no space between symbols, the members
of an object in the order of their names by code point, every character but the quote, the backslash
and the controls as it is. Two values that differ only in the order of members have the same form.
Calendar values have no form in JSON, nor has an integer with too many digits, so a value that holds
one of these cannot be written; the first of them in the order of writing is what is told.
-/

set_option autoImplicit false

namespace LintGateway.Json

/-- Floats keep the shortest digits; the words for the infinite ones and for the undefined one are
those that the reader knows. -/
def floatStyle : Decimal.FloatStyle :=
  { Decimal.houseStyle with infinity := "Infinity", notANumber := "NaN" }

/-- The form of a character inside a string. -/
def escapeChar (c : Char) : List Char :=
  if c = '"' then ['\\', '"']
  else if c = '\\' then ['\\', '\\']
  else if c = '\n' then ['\\', 'n']
  else if c = '\r' then ['\\', 'r']
  else if c = '\t' then ['\\', 't']
  else if c = '\x0c' then ['\\', 'f']
  else if c = '\x08' then ['\\', 'b']
  else if c.toNat < 0x20 then '\\' :: 'u' :: Text.hexDigits 4 c.toNat
  else [c]

/-- The form of a string. -/
def writeString (s : String) : List Char := '"' :: s.toList.flatMap escapeChar ++ ['"']

/-- The form of a sequence whose items are already written. -/
def joinItems (ts : List (List Char)) : List Char := '[' :: [','].intercalate ts ++ [']']

/-- The form of a member whose value is already written. -/
def joinMember (m : String × List Char) : List Char := writeString m.1 ++ ':' :: m.2

/-- The form of an object whose members are already written and in their order. -/
def encloseMembers (ts : List (String × List Char)) : List Char :=
  '\x7b' :: [','].intercalate (ts.map joinMember) ++ ['\x7d']

/-- What keeps a value from being written. -/
inductive Obstacle where
  | calendarValue
  | longInteger
deriving DecidableEq, Repr

/-- The forms of members in the order of their names. Where some have none, the first of them in
that order is the one that counts. -/
def inOrder (forms : List (String × Except Obstacle (List Char))) :
    Except Obstacle (List (String × List Char)) :=
  (forms.mergeSort fun a b => a.1 ≤ b.1).mapM fun m => m.2.map fun t => (m.1, t)

mutual

/-- The form of a value, or the first thing in it that has none. -/
def write : Value → Except Obstacle (List Char)
  | .null => .ok "null".toList
  | .bool b => .ok (if b then "true" else "false").toList
  | .int n => if Decimal.isWritable n then .ok (toString n).toList else .error .longInteger
  | .float x _ => .ok (Decimal.floatTextIn floatStyle x).toList
  | .text s => .ok (writeString s)
  | .moment _ => .error .calendarValue
  | .list items => (writeItems items).map joinItems
  | .tuple items => (writeItems items).map joinItems
  | .record members => (inOrder (writeMembers members)).map encloseMembers

/-- The forms of the items of a sequence. -/
def writeItems : List Value → Except Obstacle (List (List Char))
  | [] => .ok []
  | v :: vs => do
    let t ← write v
    let ts ← writeItems vs
    return t :: ts

/-- What becomes of the values of members, under their names. -/
def writeMembers : List (String × Value) → List (String × Except Obstacle (List Char))
  | [] => []
  | (name, v) :: ms => (name, write v) :: writeMembers ms

end

/-- The form of a value, if it has one. -/
def write? (v : Value) : Option (List Char) := (write v).toOption

/-- The form of a value is what writing it gives. -/
theorem write?_eq_some_iff {v : Value} {t : List Char} : write? v = some t ↔ write v = .ok t := by
  unfold write?
  cases write v <;> simp [Except.toOption]

/-- An integer that has few enough digits is written with them. -/
theorem write?_int {n : Int} (h : Decimal.isWritable n = true) :
    write? (.int n) = some (toString n).toList := by
  rw [write?_eq_some_iff, write, if_pos h]

end LintGateway.Json
