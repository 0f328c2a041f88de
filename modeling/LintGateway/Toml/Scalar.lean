import LintGateway.Decimal.Lenient
import LintGateway.Text.Split
import LintGateway.Toml.Error
import LintGateway.Value.Basic

/-!
# Numbers and moments of TOML

The values that are written without quotes: truth values, integers in four bases, floats, and dates
and times. Digits may be parted by single underscores, a time has all three of its parts, and a
fraction of a second counts to the microsecond.
-/

set_option autoImplicit false

namespace LintGateway.Toml

open Decimal (ofDigits ofDigitsIn splitSign)

/-- Reads further digits of a number, without the underscores between them. -/
def readMoreDigits (isDigit : Char → Bool) : List Char → List Char × List Char
  | [] => ([], [])
  | '_' :: d :: cs =>
    if isDigit d then
      let (ds, rest) := readMoreDigits isDigit cs
      (d :: ds, rest)
    else ([], '_' :: d :: cs)
  | d :: cs =>
    if isDigit d then
      let (ds, rest) := readMoreDigits isDigit cs
      (d :: ds, rest)
    else ([], d :: cs)

/-- Reads the digits of a number: at least one. -/
def readDigits? (isDigit : Char → Bool) : List Char → Option (List Char × List Char)
  | [] => none
  | d :: cs =>
    if isDigit d then
      let (ds, rest) := readMoreDigits isDigit cs
      some (d :: ds, rest)
    else none

/-- Reads an integer in a base other than ten, if one starts here. -/
def readBased? : List Char → Option (Value × List Char)
  | '0' :: 'x' :: cs => inBase 16 cs
  | '0' :: 'o' :: cs => inBase 8 cs
  | '0' :: 'b' :: cs => inBase 2 cs
  | _ => none
where
  /-- The digits in a base. -/
  inBase (base : Nat) (cs : List Char) : Option (Value × List Char) :=
    let isDigit (c : Char) : Bool := (Decimal.hexValue? c).any (· < base)
    (readDigits? isDigit cs).map fun r => (.int (ofDigitsIn base r.1), r.2)

/-- Reads the digits before the point: a zero alone or digits of which the first is not zero. -/
def readWhole? : List Char → Option (List Char × List Char)
  | '0' :: cs => some (['0'], cs)
  | cs => readDigits? Char.isDigit cs

/-- Reads the digits after the point, if there is one with digits. -/
def readFraction? : List Char → Option (List Char × List Char)
  | '.' :: cs => readDigits? Char.isDigit cs
  | _ => none

/-- Reads the exponent of a float, if there is one. -/
def readExponent? : List Char → Option (Int × List Char)
  | e :: cs =>
    if e = 'e' ∨ e = 'E' then
      let (negative, cs) := splitSign cs
      (readDigits? Char.isDigit cs).map fun r =>
        let n := (ofDigits r.1 : Int)
        (if negative then -n else n, r.2)
    else none
  | [] => none

/-- Reads a decimal number: an integer unless it has a fraction or an exponent. -/
def readDecimal : Reader Value := fun cs =>
  let (negative, unsigned) := splitSign cs
  match readWhole? unsigned with
  | none => .error .malformed
  | some (whole, cs) =>
    let fraction := readFraction? cs
    let (fractionDigits, cs) := fraction.getD ([], cs)
    let exponent := readExponent? cs
    let (power, cs) := exponent.getD (0, cs)
    if fraction.isSome || exponent.isSome then
      .ok (.float (Decimal.floatOfNumeral negative whole fractionDigits power), cs)
    else if Decimal.maxDigits < whole.length then .error (.longInteger whole.length)
    else
      let n := (ofDigits whole : Int)
      .ok (.int (if negative then -n else n), cs)

/-- Reads exactly `count` digits as a number. -/
def readFixed? (count : Nat) (cs : List Char) : Option (Nat × List Char) :=
  let digits := cs.take count
  if digits.length = count && digits.all Char.isDigit then some (ofDigits digits, cs.drop count)
  else none

/-- Reads two digits as a number that is at most `most`. -/
def readTwo? (most : Nat) (cs : List Char) : Option (Nat × List Char) :=
  (readFixed? 2 cs).bind fun r => if r.1 ≤ most then some r else none

/-- Reads a day, if one starts here; whether the calendar has it is left open. -/
def readDay? (cs : List Char) : Option (Day × List Char) := do
  let (year, cs) ← readFixed? 4 cs
  let (month, cs) ← readTwo? 12 (← Text.afterWord ['-'] cs)
  let (day, cs) ← readTwo? 31 (← Text.afterWord ['-'] cs)
  if month = 0 ∨ day = 0 then none else return (⟨year, month, day⟩, cs)

/-- The microseconds of a fraction of a second; digits after the sixth do not count. -/
def microseconds (digits : List Char) : Nat :=
  let shown := digits.take 6
  ofDigits (shown ++ List.replicate (6 - shown.length) '0')

/-- Reads a time of day, if one starts here. -/
def readClock? (cs : List Char) : Option (Clock × List Char) := do
  let (hour, cs) ← readTwo? 23 cs
  let (minute, cs) ← readTwo? 59 (← Text.afterWord [':'] cs)
  let (second, cs) ← readTwo? 59 (← Text.afterWord [':'] cs)
  match cs with
  | '.' :: more =>
    let digits := more.takeWhile Char.isDigit
    if digits.isEmpty then return (⟨hour, minute, second, 0⟩, cs)
    else return (⟨hour, minute, second, microseconds digits⟩, more.dropWhile Char.isDigit)
  | _ => return (⟨hour, minute, second, 0⟩, cs)

/-- Reads an offset from universal time in minutes, if one starts here. -/
def readOffset? : List Char → Option (Int × List Char)
  | c :: cs =>
    if c = 'Z' ∨ c = 'z' then some (0, cs)
    else if c = '+' ∨ c = '-' then do
      let (hours, cs) ← readTwo? 23 cs
      let (minutes, cs) ← readTwo? 59 (← Text.afterWord [':'] cs)
      let n := (60 * hours + minutes : Int)
      return (if c = '-' then -n else n, cs)
    else none
  | [] => none

/-- Reads the time of day that follows a day, if there is one: after `T` or a space. -/
def readClockAfterDay? : List Char → Option (Clock × List Char)
  | c :: cs => if c = 'T' ∨ c = 't' ∨ c = ' ' then readClock? cs else none
  | [] => none

/-- Reads a moment, if one starts here. A day that the calendar does not have is malformed. -/
def readMoment? (cs : List Char) : Option (Except Error (Value × List Char)) :=
  match readDay? cs with
  | some (day, cs) =>
    if !day.isValid then some (.error .malformed)
    else
      match readClockAfterDay? cs with
      | none => some (.ok (.moment (.date day), cs))
      | some (clock, cs) =>
        match readOffset? cs with
        | some (offset, cs) => some (.ok (.moment (.dateTime day clock (some offset)), cs))
        | none => some (.ok (.moment (.dateTime day clock none), cs))
  | none => (readClock? cs).map fun r => .ok (.moment (.time r.1), r.2)

/-- The values that have a word of their own. -/
def words : List (String × Value) :=
  [("true", .bool true), ("false", .bool false),
    ("inf", .float (1.0 / 0.0)), ("+inf", .float (1.0 / 0.0)), ("-inf", .float (-1.0 / 0.0)),
    ("nan", .float (0.0 / 0.0)), ("+nan", .float (0.0 / 0.0)), ("-nan", .float (0.0 / 0.0))]

/-- Reads a value that has a word of its own, if one starts here. -/
def readWord? (cs : List Char) : Option (Value × List Char) :=
  words.findSome? fun w => (Text.afterWord w.1.toList cs).map fun rest => (w.2, rest)

/-- Reads a value without quotes or brackets. -/
def readScalar : Reader Value := fun cs =>
  match readWord? cs with
  | some r => .ok r
  | none =>
    match readMoment? cs with
    | some r => r
    | none =>
      match readBased? cs with
      | some r => .ok r
      | none => readDecimal cs

end LintGateway.Toml
