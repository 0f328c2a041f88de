import LintGateway.Decimal.Numeral
import LintGateway.Text.Blank

/-!
# Numerals in settings

Settings may hold a number as a text. Such a numeral may stand between spaces, carry a sign and part
its digits by single underscores. An integer may begin with zeros that count nothing and end in a
fraction of zeros; a float has digits on at least one side of its point, perhaps an exponent, or is
one of the words for the infinite and the undefined float in any case. Integers have a greatest
length, and a text that exceeds it is told apart from one that is no numeral.
-/

set_option autoImplicit false

namespace LintGateway.Decimal

/-- Why a text denotes no integer: it is no numeral, or one with too many digits. -/
inductive IntegerFault where
  | unreadable
  | tooLong
deriving DecidableEq, Repr

/-- The blanks that may surround a numeral: those of the property White_Space. -/
def isNumeralSpace (c : Char) : Bool :=
  Text.isBlank c && !(28 ≤ c.toNat && c.toNat ≤ 31)

/-- A numeral without the space around it. -/
def trimNumeral (s : String) : List Char :=
  ((s.toList.dropWhile isNumeralSpace).reverse.dropWhile isNumeralSpace).reverse

/-- The sign in front of a numeral, and the rest. -/
def splitSign : List Char → Bool × List Char
  | '-' :: cs => (true, cs)
  | '+' :: cs => (false, cs)
  | cs => (false, cs)

/-- The minus sign in front of a numeral, and the rest. -/
def splitMinus : List Char → Bool × List Char
  | '-' :: cs => (true, cs)
  | cs => (false, cs)

/-- Whether two underscores stand beside each other. -/
def hasDoubledUnderscore : List Char → Bool
  | [] => false
  | '_' :: '_' :: _ => true
  | _ :: cs => hasDoubledUnderscore cs

/-- The numeral without its underscores. None of them may stand at an end or beside another. -/
def dropUnderscores? (cs : List Char) : Option (List Char) :=
  if cs.head? = some '_' || cs.getLast? = some '_' || hasDoubledUnderscore cs then none
  else some (cs.filter (· ≠ '_'))

/-- What is left of a numeral after a zero, once further zeros and the underscores among them are
passed; `last` is the character passed last. It stays where nothing else is left, and in front of a
point. -/
def skipZeros (last : Char) : List Char → List Char
  | [] => [last]
  | c :: cs =>
    if c = '0' || c = '_' then skipZeros c cs
    else if c = '.' then last :: c :: cs
    else c :: cs

/-- The numeral without the zeros at its start. It has to start with a digit. -/
def dropZeros? : List Char → Option (List Char)
  | [] => none
  | '0' :: cs => some (skipZeros '0' cs)
  | c :: cs => if c.isDigit then some (c :: cs) else none

/-- The numeral without its fraction, if it has one: a point with zeros after it. -/
def dropFraction? (cs : List Char) : Option (List Char) :=
  match cs.dropWhile (· ≠ '.') with
  | [] => some cs
  | _ :: fraction =>
    if fraction.isEmpty || fraction.any (· ≠ '0') then none else some (cs.takeWhile (· ≠ '.'))

/-- The integer that digits denote, of which the first is zero only when it is alone; a minus sign
may stand before them. -/
def plainInt? (cs : List Char) : Option Int :=
  let (negative, digits) := splitMinus cs
  if digits.isEmpty || !digits.all Char.isDigit || maxDigits < digits.length then none
  else if digits.head? = some '0' && 1 < digits.length then none
  else
    let n := (ofDigits digits : Int)
    some (if negative then -n else n)

/-- The integer that a text with all the liberties of a numeral denotes. -/
def tidiedInt? (s : String) : Option Int := do
  let (negative, cs) := splitSign (trimNumeral s)
  let cs ← dropZeros? cs
  let cs ← dropFraction? cs
  let cs ← dropUnderscores? cs
  plainInt? (if negative then '-' :: cs else cs)

/-- Whether a text starts with more digits than an integer may have, the first of them not zero. A
minus sign may stand before them. -/
def startsTooLong (cs : List Char) : Bool :=
  let digits := (splitMinus cs).2.takeWhile Char.isDigit
  digits.head? ≠ some '0' && maxDigits < digits.length

/-- The integer that a text denotes. -/
def lenientInt (s : String) : Except IntegerFault Int :=
  if startsTooLong s.toList then .error .tooLong
  else
    match tidiedInt? s with
    | some n => .ok n
    | none => .error .unreadable

/-- The exponent at the end of a numeral, zero when there is none. -/
def exponentOf? : List Char → Option Int
  | [] => some 0
  | e :: cs =>
    if e = 'e' ∨ e = 'E' then
      let (negative, digits) := splitSign cs
      if digits.isEmpty || !digits.all Char.isDigit then none
      else
        let n := (ofDigits digits : Int)
        some (if negative then -n else n)
    else none

/-- The float that a numeral without spaces and underscores denotes. -/
def plainFloat? (cs : List Char) : Option Float := do
  let (negative, cs) := splitSign cs
  let word := String.ofList (cs.map Char.toLower)
  let signed (x : Float) : Float := if negative then -x else x
  if word = "inf" || word = "infinity" then return signed (1.0 / 0.0)
  else if word = "nan" then return 0.0 / 0.0
  else
    let whole := cs.takeWhile Char.isDigit
    let (fraction, tail) := match cs.dropWhile Char.isDigit with
      | '.' :: more => (more.takeWhile Char.isDigit, more.dropWhile Char.isDigit)
      | more => ([], more)
    if whole.isEmpty && fraction.isEmpty then none
    else
      let exponent ← exponentOf? tail
      return floatOfNumeral negative whole fraction exponent

/-- The float that a text denotes: a numeral between spaces, or one parted by underscores with no
space around it. -/
def lenientFloat? (s : String) : Option Float :=
  match plainFloat? (trimNumeral s) with
  | some x => some x
  | none => (dropUnderscores? s.toList).bind plainFloat?

end LintGateway.Decimal
