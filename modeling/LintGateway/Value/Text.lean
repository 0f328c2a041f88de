import LintGateway.Decimal.Numeral
import LintGateway.Value.Basic
import LintGateway.Text.Quoted

/-!
# Texts of values

`describe` writes a value so that its shape can be seen: texts quoted, sequences in brackets or
parentheses, records in braces. `toText` is the same except that a text and a calendar value stand
for themselves. Error messages quote values by the first, and names made from values use the second.
-/

set_option autoImplicit false

namespace LintGateway.Value

mutual

/-- The description of a value. -/
def describe : Value → String
  | null => "None"
  | bool true => "True"
  | bool false => "False"
  | int n => toString n
  | float x _ => Decimal.floatText x
  | text s => Text.quoted s
  | moment m => m.describe
  | list items => "[" ++ ", ".intercalate (describeItems items) ++ "]"
  | tuple [item] => "(" ++ describe item ++ ",)"
  | tuple items => "(" ++ ", ".intercalate (describeItems items) ++ ")"
  | record members => "\x7b" ++ ", ".intercalate (describeMembers members) ++ "\x7d"

/-- The descriptions of the items of a sequence. -/
def describeItems : List Value → List String
  | [] => []
  | item :: items => describe item :: describeItems items

/-- The descriptions of the members of a record: the name quoted, then the value. -/
def describeMembers : List (String × Value) → List String
  | [] => []
  | (name, value) :: members =>
    (Text.quoted name ++ ": " ++ describe value) :: describeMembers members

end

mutual

/-- Whether a value has a text: no integer in it has too many digits. -/
def isWritable : Value → Bool
  | int n => Decimal.isWritable n
  | list items => areWritable items
  | tuple items => areWritable items
  | record members => haveWritable members
  | _ => true

/-- Whether every item of a sequence has a text. -/
def areWritable : List Value → Bool
  | [] => true
  | item :: items => isWritable item && areWritable items

/-- Whether every member of a record has a text. -/
def haveWritable : List (String × Value) → Bool
  | [] => true
  | (_, value) :: members => isWritable value && haveWritable members

end

/-- A value as a plain text. -/
def toText : Value → String
  | text s => s
  | moment m => m.toText
  | v => v.describe

end LintGateway.Value
