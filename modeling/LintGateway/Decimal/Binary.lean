/-!
# Floats as exact numbers

A finite float is a whole number times a power of two. Reading it that way lets everything else
(the shortest decimal text, rounding to a place, comparing with an integer) be exact arithmetic on
integers.
-/

set_option autoImplicit false

namespace LintGateway.Decimal

/-- The number `mantissa · 2 ^ exponent`, negated when `negative`. A negative zero keeps its
sign. -/
structure Binary where
  negative : Bool
  mantissa : Nat
  exponent : Int
deriving DecidableEq, Repr

/-- What a float stands for. -/
inductive Magnitude where
  | finite (value : Binary)
  | infinite (negative : Bool)
  | notANumber
deriving DecidableEq, Repr

/-- The number a float stands for, read off its sign bit, eleven exponent bits and fifty-two
fraction bits. -/
def Magnitude.ofFloat (x : Float) : Magnitude :=
  let bits : Nat := x.toBits.toNat
  let negative := bits / Nat.pow 2 63 == 1
  let power : Nat := bits / Nat.pow 2 52 % Nat.pow 2 11
  let fraction := bits % Nat.pow 2 52
  if power = Nat.pow 2 11 - 1 then
    if fraction = 0 then .infinite negative else .notANumber
  else if power = 0 then .finite ⟨negative, fraction, -1074⟩
  else .finite ⟨negative, Nat.pow 2 52 + fraction, (power : Int) - 1075⟩

namespace Binary

/-- The size of the number, without its sign, as a quotient of two natural numbers. -/
def quotient (b : Binary) : Nat × Nat :=
  match b.exponent with
  | .ofNat k => (b.mantissa * Nat.pow 2 k, 1)
  | .negSucc k => (b.mantissa, Nat.pow 2 (k + 1))

/-- The integer the number is equal to, if it is one. -/
def toInt? (b : Binary) : Option Int :=
  let (num, den) := b.quotient
  if num % den = 0 then
    some (if b.negative then -((num / den : Nat) : Int) else ((num / den : Nat) : Int))
  else none

/-- The number as an exact fraction. -/
def toRat (b : Binary) : Rat :=
  let (num, den) := b.quotient
  mkRat (if b.negative then -(num : Int) else (num : Int)) den

end Binary

end LintGateway.Decimal
