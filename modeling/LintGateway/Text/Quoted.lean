import LintGateway.Text.Unprintable

/-!
# Quoted texts

Messages show a text or a byte string between quotes, on one line and without invisible characters.
Single quotes are used unless the text holds one and no double quote. The quote in use and the
backslash get a backslash, line feed, carriage return and tab are `\n`, `\r` and `\t`, and every
other character without a glyph of its own is written by its code point in two, four or eight
hexadecimal digits.
-/

set_option autoImplicit false

namespace LintGateway.Text

/-- The last `width` hexadecimal digits of a number, in lower case. -/
def hexDigits : Nat → Nat → List Char
  | 0, _ => []
  | width + 1, n => hexDigits width (n / 16) ++ [Nat.digitChar (n % 16)]

/-- The quote for a text: the double one when it alone needs no escape, the single one otherwise. -/
def quoteMark (cs : List Char) : Char :=
  if cs.contains '\x27' && !cs.contains '"' then '"' else '\x27'

/-- The written form of a character with a code point below 0x80, and of a byte. -/
def escapeNarrow (mark : Char) (n : Nat) : List Char :=
  if n = mark.toNat ∨ n = 0x5c then ['\\', Char.ofNat n]
  else if n = 0x09 then ['\\', 't']
  else if n = 0x0a then ['\\', 'n']
  else if n = 0x0d then ['\\', 'r']
  else if n < 0x20 ∨ 0x7f ≤ n then '\\' :: 'x' :: hexDigits 2 n
  else [Char.ofNat n]

/-- The written form of a character between quotes `mark`. -/
def escapeChar (mark c : Char) : List Char :=
  let n := c.toNat
  if n < 0x80 then escapeNarrow mark n
  else if isPrintable c then [c]
  else if n < 0x100 then '\\' :: 'x' :: hexDigits 2 n
  else if n < 0x10000 then '\\' :: 'u' :: hexDigits 4 n
  else '\\' :: 'U' :: hexDigits 8 n

/-- A text between quotes. -/
def quoted (s : String) : String :=
  let cs := s.toList
  let mark := quoteMark cs
  String.ofList (mark :: cs.flatMap (escapeChar mark) ++ [mark])

/-- A byte string between quotes: `b`, then each byte as the character of its code or by its two
digits. -/
def quotedBytes (bytes : ByteArray) : String :=
  let codes := bytes.toList.map UInt8.toNat
  let mark := quoteMark (codes.map Char.ofNat)
  String.ofList ('b' :: mark :: codes.flatMap (escapeNarrow mark) ++ [mark])

end LintGateway.Text
