import LintGateway.Value.Basic
import LintGateway.Decimal.Numeral
import LintGateway.Text.Split

/-!
# Reading JSON

The strict reader of report documents. One function per symbol of the grammar; each takes the text
from where it stands and gives what it read with the rest of the text, or nothing when the text
breaks the grammar. Beyond the grammar the bare words `NaN`, `Infinity` and `-Infinity` are floats,
the integer part of a number has a greatest length, and containers that hold something nest at most
200 deep. When an object repeats a name, the first place and the last value stay.
-/

set_option autoImplicit false

namespace LintGateway.Json

/-- The four characters that may stand between symbols. -/
def isSpace (c : Char) : Bool := c = ' ' || c = '\t' || c = '\n' || c = '\r'

/-- The text after the space at its start. -/
def skipSpace (cs : List Char) : List Char := cs.dropWhile isSpace

/-- How deep containers that hold something may nest. -/
def maxDepth : Nat := 200

/-- The number that four hexadecimal digits denote. -/
def hexUnit (a b c d : Char) : Option Nat := do
  let a ← Decimal.hexValue? a
  let b ← Decimal.hexValue? b
  let c ← Decimal.hexValue? c
  let d ← Decimal.hexValue? d
  return ((a * 16 + b) * 16 + c) * 16 + d

/-- The character that a one-letter escape stands for. -/
def shortEscape? : Char → Option Char
  | '"' => some '"'
  | '\\' => some '\\'
  | '/' => some '/'
  | 'b' => some '\x08'
  | 'f' => some '\x0c'
  | 'n' => some '\n'
  | 'r' => some '\r'
  | 't' => some '\t'
  | _ => none

/-- Reads the rest of a string after its opening quote; `read` holds the characters so far, the
last one first. Two escapes make one character when they are a high and a low surrogate, and
neither stands alone. -/
def readString (read : List Char) : List Char → Option (String × List Char)
  | [] => none
  | '"' :: cs => some (String.ofList read.reverse, cs)
  | '\\' :: 'u' :: a :: b :: c :: d :: cs =>
    match hexUnit a b c d with
    | none => none
    | some unit =>
      if unit < 0xd800 || 0xdfff < unit then readString (Char.ofNat unit :: read) cs
      else if 0xdbff < unit then none
      else
        match cs with
        | '\\' :: 'u' :: a :: b :: c :: d :: cs =>
          match hexUnit a b c d with
          | none => none
          | some low =>
            if low < 0xdc00 || 0xdfff < low then none
            else
              readString
                (Char.ofNat (0x10000 + (unit - 0xd800) * 0x400 + (low - 0xdc00)) :: read) cs
        | _ => none
  | '\\' :: e :: cs =>
    match shortEscape? e with
    | none => none
    | some c => readString (c :: read) cs
  | c :: cs => if c.toNat < 0x20 then none else readString (c :: read) cs

/-- Reads the digits of a number part: at least one. -/
def readDigits (cs : List Char) : Option (List Char × List Char) :=
  match cs.takeWhile Char.isDigit with
  | [] => none
  | digits => some (digits, cs.dropWhile Char.isDigit)

/-- Reads the exponent of a number, if it has one: zero otherwise. -/
def readExponent : List Char → Option (Option Int × List Char)
  | 'e' :: cs => signed cs
  | 'E' :: cs => signed cs
  | cs => some (none, cs)
where
  /-- The exponent after its letter. -/
  signed : List Char → Option (Option Int × List Char)
    | '+' :: cs => (readDigits cs).map fun r => (some (Decimal.ofDigits r.1 : Int), r.2)
    | '-' :: cs => (readDigits cs).map fun r => (some (-(Decimal.ofDigits r.1 : Int)), r.2)
    | cs => (readDigits cs).map fun r => (some (Decimal.ofDigits r.1 : Int), r.2)

/-- Reads the fraction of a number, if it has one: no digits otherwise. -/
def readFraction : List Char → Option (List Char × List Char)
  | '.' :: cs => readDigits cs
  | cs => some ([], cs)

/-- Reads a number after its sign. Without fraction and exponent it is an integer. -/
def readNumber (negative : Bool) (cs : List Char) : Option (Value × List Char) := do
  let (whole, cs) ← readDigits cs
  if Decimal.maxDigits < whole.length then none
  else if 1 < whole.length ∧ whole.head? = some '0' then none
  else
    let (fraction, cs) ← readFraction cs
    let (exponent, cs) ← readExponent cs
    match fraction, exponent with
    | [], none =>
      let n := (Decimal.ofDigits whole : Int)
      return (.int (if negative then -n else n), cs)
    | _, _ =>
      return (.float (Decimal.floatOfNumeral negative whole fraction (exponent.getD 0)), cs)

/-- Reads the items of an array up to its end; `read` holds those so far, the last one first. -/
def readItems (readOne : List Char → Option (Value × List Char)) :
    Nat → List Value → List Char → Option (List Value × List Char)
  | 0, _, _ => none
  | left + 1, read, cs => do
    let (v, cs) ← readOne (skipSpace cs)
    match skipSpace cs with
    | ',' :: cs => readItems readOne left (v :: read) cs
    | ']' :: cs => return ((v :: read).reverse, cs)
    | _ => none

/-- Reads the members of an object up to its end, after those already `read`. -/
def readMembers (readOne : List Char → Option (Value × List Char)) :
    Nat → Value.Table → List Char → Option (Value.Table × List Char)
  | 0, _, _ => none
  | left + 1, read, cs =>
    match skipSpace cs with
    | '"' :: cs => do
      let (name, cs) ← readString [] cs
      match skipSpace cs with
      | ':' :: cs =>
        let (v, cs) ← readOne (skipSpace cs)
        match skipSpace cs with
        | ',' :: cs => readMembers readOne left (read.put name v) cs
        | '\x7d' :: cs => return (read.put name v, cs)
        | _ => none
      | _ => none
    | _ => none

/-- Reads a value that is neither an array nor an object. -/
def readScalar : List Char → Option (Value × List Char)
  | '"' :: cs => (readString [] cs).map fun r => (.text r.1, r.2)
  | '-' :: 'I' :: cs =>
    (Text.afterWord "nfinity".toList cs).map fun cs => (.float (-1.0 / 0.0), cs)
  | '-' :: cs => readNumber true cs
  | 'n' :: cs => (Text.afterWord "ull".toList cs).map fun cs => (.null, cs)
  | 't' :: cs => (Text.afterWord "rue".toList cs).map fun cs => (.bool true, cs)
  | 'f' :: cs => (Text.afterWord "alse".toList cs).map fun cs => (.bool false, cs)
  | 'N' :: cs => (Text.afterWord "aN".toList cs).map fun cs => (.float (0.0 / 0.0), cs)
  | 'I' :: cs => (Text.afterWord "nfinity".toList cs).map fun cs => (.float (1.0 / 0.0), cs)
  | cs => readNumber false cs

/-- Reads a value in which containers that hold something have at most `most` items or members and
nest at most `levels` deep. -/
def readValue (most : Nat) : Nat → List Char → Option (Value × List Char)
  | levels, '[' :: cs =>
    match skipSpace cs, levels with
    | ']' :: cs, _ => some (.list [], cs)
    | _, 0 => none
    | cs, levels + 1 =>
      (readItems (readValue most levels) most [] cs).map fun r => (.list r.1, r.2)
  | levels, '\x7b' :: cs =>
    match skipSpace cs, levels with
    | '\x7d' :: cs, _ => some (.record [], cs)
    | _, 0 => none
    | cs, levels + 1 =>
      (readMembers (readValue most levels) most [] cs).map fun r => (.record r.1, r.2)
  | _, cs => readScalar cs

/-- The value of a JSON text in which containers that hold something nest at most `levels` deep. A
container has no more items than the text has characters. -/
def readWithin? (levels : Nat) (s : String) : Option Value :=
  match readValue (s.length + 1) levels (skipSpace s.toList) with
  | some (v, rest) => if (skipSpace rest).isEmpty then some v else none
  | none => none

/-- The value of a JSON text. -/
def read? (s : String) : Option Value := readWithin? maxDepth s

end LintGateway.Json
