import LintGateway.Decimal.Numeral
import LintGateway.Toml.Error

/-!
# Strings of TOML

A string is basic, between double quotes and with escapes, or literal, between single quotes and as
it is; either kind has a form of several lines between three quotes. In that form up to two more
quotes may stand before the closing three, and in a basic one a backslash at the end of a line drops
the space up to the next visible character.
-/

set_option autoImplicit false

namespace LintGateway.Toml

/-- Where the reading of a basic string stands: in its text, after a backslash with only space
before the end of the line, or in the space after that end. -/
inductive Gap where
  | none
  | beforeLineEnd
  | afterLineEnd
deriving DecidableEq

/-- The character that a one-letter escape stands for. -/
def shortEscape? : Char → Option Char
  | '"' => some '"'
  | '\\' => some '\\'
  | 'b' => some '\x08'
  | 'f' => some '\x0c'
  | 'n' => some '\n'
  | 'r' => some '\r'
  | 't' => some '\t'
  | _ => Option.none

/-- The character of a code point given by hexadecimal digits; surrogates are not characters. -/
def charOfHex? (digits : List Char) : Option Char := do
  let n ← digits.foldlM (fun n c => (Decimal.hexValue? c).map (16 * n + ·)) 0
  if n < 0xd800 || (0xdfff < n && n < 0x110000) then return Char.ofNat n else Option.none

/-- The text of characters given the last one first. -/
def textOfReversed (read : List Char) : String := String.ofList read.reverse

/-- Reads the rest of a basic string after its opening quotes; `read` holds the characters so far,
the last one first. -/
def readBasic (multiline : Bool) (gap : Gap) (read : List Char) : Reader String
  | [] => .error .malformed
  | c :: cs =>
    if gap = .afterLineEnd && (isSpace c || c = '\n') then readBasic multiline gap read cs
    else if gap = .beforeLineEnd then
      if c = '\n' then readBasic multiline .afterLineEnd read cs
      else if isSpace c then readBasic multiline gap read cs
      else .error .malformed
    else if c = '"' then
      if !multiline then .ok (textOfReversed read, cs)
      else
        match cs with
        | '"' :: '"' :: '"' :: '"' :: cs => .ok (textOfReversed ('"' :: '"' :: read), cs)
        | '"' :: '"' :: '"' :: cs => .ok (textOfReversed ('"' :: read), cs)
        | '"' :: '"' :: cs => .ok (textOfReversed read, cs)
        | cs => readBasic multiline .none ('"' :: read) cs
    else if c = '\\' then
      match cs with
      | 'u' :: h₁ :: h₂ :: h₃ :: h₄ :: cs =>
        match charOfHex? [h₁, h₂, h₃, h₄] with
        | some d => readBasic multiline .none (d :: read) cs
        | Option.none => .error .malformed
      | 'U' :: h₁ :: h₂ :: h₃ :: h₄ :: h₅ :: h₆ :: h₇ :: h₈ :: cs =>
        match charOfHex? [h₁, h₂, h₃, h₄, h₅, h₆, h₇, h₈] with
        | some d => readBasic multiline .none (d :: read) cs
        | Option.none => .error .malformed
      | e :: cs =>
        if multiline && e = '\n' then readBasic multiline .afterLineEnd read cs
        else if multiline && isSpace e then readBasic multiline .beforeLineEnd read cs
        else
          match shortEscape? e with
          | some d => readBasic multiline .none (d :: read) cs
          | Option.none => .error .malformed
      | [] => .error .malformed
    else if isControl c && !(multiline && c = '\n') then .error .malformed
    else readBasic multiline .none (c :: read) cs

/-- Reads the rest of a literal string after its opening quotes. -/
def readLiteral (multiline : Bool) (read : List Char) : Reader String
  | [] => .error .malformed
  | c :: cs =>
    if c = '\x27' then
      if !multiline then .ok (textOfReversed read, cs)
      else
        match cs with
        | '\x27' :: '\x27' :: '\x27' :: '\x27' :: cs =>
          .ok (textOfReversed ('\x27' :: '\x27' :: read), cs)
        | '\x27' :: '\x27' :: '\x27' :: cs => .ok (textOfReversed ('\x27' :: read), cs)
        | '\x27' :: '\x27' :: cs => .ok (textOfReversed read, cs)
        | cs => readLiteral multiline ('\x27' :: read) cs
    else if isControl c && !(multiline && c = '\n') then .error .malformed
    else readLiteral multiline (c :: read) cs

/-- The text after a line feed at its start, if there is one. -/
def skipFirstLineFeed : List Char → List Char
  | '\n' :: cs => cs
  | cs => cs

/-- Reads a string of any kind, if one starts here. -/
def readQuotation? : List Char → Option (Except Error (String × List Char))
  | '"' :: '"' :: '"' :: cs => some (readBasic true .none [] (skipFirstLineFeed cs))
  | '"' :: cs => some (readBasic false .none [] cs)
  | '\x27' :: '\x27' :: '\x27' :: cs => some (readLiteral true [] (skipFirstLineFeed cs))
  | '\x27' :: cs => some (readLiteral false [] cs)
  | _ => Option.none

end LintGateway.Toml
