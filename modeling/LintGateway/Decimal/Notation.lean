import LintGateway.Decimal.Shortest

/-!
# Decimal texts of floats

Two ways to write a float. `floatText` writes the shortest digits that read back, with a point and
an exponent as the house style `houseStyle` says. `fixedText` writes a given number of decimal
places, rounding the exact value and sending a tie to the even neighbour.
-/

set_option autoImplicit false

namespace LintGateway.Decimal

/-- The choices that turn digits and an exponent into a text. -/
structure FloatStyle where
  /-- The least exponent of ten of the leading digit that is still written without one. -/
  leastPlain : Int
  /-- The first exponent of ten of the leading digit that is written with an exponent again. -/
  firstScaled : Int
  /-- How many digits an exponent has at least. -/
  exponentWidth : Nat
  infinity : String
  notANumber : String

/-- Exponents appear below `1e-04` and from `1e+16` on, with a sign and at least two digits; a
number without an exponent keeps at least one digit after the point. -/
def houseStyle : FloatStyle :=
  { leastPlain := -4
    firstScaled := 16
    exponentWidth := 2
    infinity := "inf"
    notANumber := "nan" }

/-- The digits of a number without the zeros at its end, and how many zeros were dropped. -/
def dropTrailingZeros (digits : List Char) : List Char × Nat :=
  let kept := (digits.reverse.dropWhile (· = '0')).reverse
  (kept, digits.length - kept.length)

/-- Puts zeros before the digits until there are `width` of them. -/
def padLeft (width : Nat) (digits : List Char) : List Char :=
  List.replicate (width - digits.length) '0' ++ digits

/-- The written form of significant digits whose first one stands for `10 ^ e`. -/
def placeDigits (style : FloatStyle) (digits : List Char) (e : Int) : List Char :=
  if e < style.leastPlain ∨ style.firstScaled ≤ e then
    let point := match digits with
      | d :: more@(_ :: _) => d :: '.' :: more
      | few => few
    let size := padLeft style.exponentWidth (Nat.toDigits 10 e.natAbs)
    point ++ 'e' :: (if e < 0 then '-' else '+') :: size
  else if e < 0 then '0' :: '.' :: List.replicate (e.natAbs - 1) '0' ++ digits
  else
    let whole := e.natAbs + 1
    if digits.length ≤ whole then
      digits ++ List.replicate (whole - digits.length) '0' ++ ['.', '0']
    else digits.take whole ++ '.' :: digits.drop whole

/-- The text of a finite float by its shortest digits. -/
def Binary.toText (style : FloatStyle) (b : Binary) : String :=
  let body :=
    if b.mantissa = 0 then ['0', '.', '0']
    else
      let (d, k) := b.shortest
      let digits := Nat.toDigits 10 d
      placeDigits style (dropTrailingZeros digits).1 (k + digits.length - 1)
  String.ofList (if b.negative then '-' :: body else body)

/-- The text of a float in a style. -/
def floatTextIn (style : FloatStyle) (x : Float) : String :=
  match Magnitude.ofFloat x with
  | .finite b => b.toText style
  | .infinite negative => if negative then "-" ++ style.infinity else style.infinity
  | .notANumber => style.notANumber

/-- The text of a float by its shortest digits. -/
def floatText (x : Float) : String := floatTextIn houseStyle x

/-- The natural number nearest to a quotient, the even one when two are equally near. -/
def roundQuotient (num den : Nat) : Nat :=
  let down := num / den
  let rest := 2 * (num % den)
  if rest < den ∨ (rest = den ∧ down % 2 = 0) then down else down + 1

/-- The text of a float with `places` digits after the point. -/
def fixedText (places : Nat) (x : Float) : String :=
  match Magnitude.ofFloat x with
  | .finite b =>
    let (num, den) := b.quotient
    let scaled := roundQuotient (num * Nat.pow 10 places) den
    let digits := padLeft (places + 1) (Nat.toDigits 10 scaled)
    let whole := digits.length - places
    let body := digits.take whole ++ if places = 0 then [] else '.' :: digits.drop whole
    String.ofList (if b.negative then '-' :: body else body)
  | .infinite negative => if negative then "-inf" else "inf"
  | .notANumber => "nan"

end LintGateway.Decimal
