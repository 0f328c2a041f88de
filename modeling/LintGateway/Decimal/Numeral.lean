/-!
# Reading decimal numerals

Documents and settings write numbers as decimal digits, with a fraction and an exponent for a float.
A float is the one nearest to the exact decimal value; a value beyond the largest float is infinite.
-/

set_option autoImplicit false

namespace LintGateway.Decimal

/-- How many digits an integer may have where it is read from decimal digits or written with them.
-/
def maxDigits : Nat := 4300

/-- Whether an integer has at most `maxDigits` digits. -/
def isWritable (n : Int) : Bool := n.natAbs < Nat.pow 10 maxDigits

/-- The sentence about an integer with too many digits, which tells their number if it is known. -/
def tooManyDigits (count : Option Nat) : String :=
  let found := match count with
    | some n => ": value has " ++ toString n ++ " digits"
    | none => ""
  "Exceeds the limit (" ++ toString maxDigits ++ " digits) for integer string conversion" ++
    found ++ "; use sys.set_int_max_str_digits() to increase the limit"

/-- The value of a decimal digit character. -/
def digitValue (c : Char) : Nat := c.toNat - '0'.toNat

/-- The natural number that a list of decimal digits denotes. -/
def ofDigits (digits : List Char) : Nat := digits.foldl (fun n c => 10 * n + digitValue c) 0

/-- The value of a hexadecimal digit character, upper or lower case. -/
def hexValue? (c : Char) : Option Nat :=
  if c.isDigit then some (digitValue c)
  else if 'a' ≤ c ∧ c ≤ 'f' then some (c.toNat - 'a'.toNat + 10)
  else if 'A' ≤ c ∧ c ≤ 'F' then some (c.toNat - 'A'.toNat + 10)
  else none

/-- The natural number that a list of digits denotes in a base up to sixteen. -/
def ofDigitsIn (base : Nat) (digits : List Char) : Nat :=
  digits.foldl (fun n c => base * n + (hexValue? c).getD 0) 0

/-- The float nearest to `digits · 10 ^ exponent`. The size of the number is checked first, so that
no huge power of ten is ever computed. -/
def scaledFloat (digits : Nat) (exponent : Int) : Float :=
  let size := ((Nat.toDigits 10 digits).length : Int) + exponent
  if digits = 0 ∨ size < -400 then 0.0
  else if 400 < size then 1.0 / 0.0
  else
    match exponent with
    | .ofNat e => Float.ofScientific digits false e
    | .negSucc e => Float.ofScientific digits true (e + 1)

/-- The float that a sign, the digits before the point, those after it and an exponent denote. -/
def floatOfNumeral (negative : Bool) (whole fraction : List Char) (exponent : Int) : Float :=
  let size := scaledFloat (ofDigits (whole ++ fraction)) (exponent - fraction.length)
  if negative then -size else size

/-- The float nearest to an integer, if there is one among the finite floats. -/
def floatOfInt? (n : Int) : Option Float :=
  let x := scaledFloat n.natAbs 0
  if x.isInf then none else some (if n < 0 then -x else x)

end LintGateway.Decimal
