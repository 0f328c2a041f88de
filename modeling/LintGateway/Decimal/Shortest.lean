import LintGateway.Decimal.Binary

/-!
# Shortest decimal digits

The text of a float uses the fewest significant digits that still read back as the same float, and
of the numbers with that many digits the nearest one, the even one when two are equally near. All
numbers that round to the float form an interval around it; its ends belong to it when the mantissa
is even. For one digit, two digits and so on up to seventeen, the two neighbours of the float on
that decimal grid are tested against the interval in exact arithmetic, and the first grid with a hit
wins.
-/

set_option autoImplicit false

namespace LintGateway.Decimal

/-- How many decimal digits a natural number has; zero has none. -/
def digitCount (n : Nat) : Nat := if n = 0 then 0 else (Nat.toDigits 10 n).length

/-- The exponent `e` with `10 ^ e ≤ num / den < 10 ^ (e + 1)`, for a positive quotient. -/
def decimalExponent (num den : Nat) : Int :=
  if den ≤ num then (digitCount (num / den) : Int) - 1 else -(digitCount ((den - 1) / num) : Int)

/-- The numbers that round to a float: `low / den` to `high / den`, with the float itself at
`value / den`; the ends count when `closed`. -/
structure RoundingInterval where
  low : Nat
  value : Nat
  high : Nat
  den : Nat
  closed : Bool

/-- The interval of a positive float. The float below is nearer than the one above exactly when the
fraction bits are all zero and the exponent can still go down. -/
def Binary.interval (b : Binary) : RoundingInterval :=
  let (num, den) := { b with mantissa := 1 }.quotient
  let below := if b.mantissa = Nat.pow 2 52 ∧ -1074 < b.exponent then 1 else 2
  { low := (4 * b.mantissa - below) * num
    value := 4 * b.mantissa * num
    high := (4 * b.mantissa + 2) * num
    den := 4 * den
    closed := b.mantissa % 2 = 0 }

/-- Whether the quotient `num / den` lies in an interval. -/
def RoundingInterval.contains (r : RoundingInterval) (num den : Nat) : Bool :=
  if r.closed then r.low * den ≤ num * r.den && num * r.den ≤ r.high * den
  else r.low * den < num * r.den && num * r.den < r.high * den

/-- A quotient scaled by a power of ten. -/
def scaleTen (num den : Nat) : Int → Nat × Nat
  | .ofNat k => (num * Nat.pow 10 k, den)
  | .negSucc k => (num, den * Nat.pow 10 (k + 1))

/-- The best multiple of `10 ^ k` in an interval, if there is one: of the two neighbours of the
float the one in the interval, and of two the nearer, the even one when they are equally near. -/
def RoundingInterval.onGrid (r : RoundingInterval) (k : Int) : Option Nat :=
  let (num, den) := scaleTen r.value r.den (-k)
  let down := num / den
  let holds (d : Nat) : Bool := let (n, m) := scaleTen d 1 k; r.contains n m
  match holds down, holds (down + 1) with
  | true, true =>
    let rest := 2 * (num % den)
    if rest < den ∨ (rest = den ∧ down % 2 = 0) then some down else some (down + 1)
  | true, false => some down
  | false, true => some (down + 1)
  | false, false => none

/-- Tries grids with more and more digits, `left` of them, the first one at `10 ^ k`. -/
def RoundingInterval.firstGrid (r : RoundingInterval) : Nat → Int → Nat × Int
  | 0, k => (0, k)
  | left + 1, k =>
    match r.onGrid k with
    | some d => (d, k)
    | none => r.firstGrid left (k - 1)

/-- Digits and exponent of ten of the shortest decimal that reads back as a positive float. -/
def Binary.shortest (b : Binary) : Nat × Int :=
  let r := b.interval
  r.firstGrid 17 (decimalExponent r.value r.den)

end LintGateway.Decimal
