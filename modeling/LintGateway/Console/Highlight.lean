import LintGateway.Console.Style
import LintGateway.Text.Pattern
import LintGateway.Text.WordTable

/-!
# Highlighting

What stands out in a line of text: tags, attributes, braces, addresses, calls, numbers, paths,
quoted texts and the like. Each is found by a pattern and shown in a style of its own. The patterns
are applied one after the other, and what a later one finds is shown over what an earlier one found.
-/

set_option autoImplicit false

namespace LintGateway.Console

open Text (Pattern)
open Text.Pattern

/-- A style for a stretch of a text: the characters from `start` on and before `stop`. -/
structure Span where
  start : Nat
  stop : Nat
  style : Style
deriving Repr

namespace Highlight

/-- Something that stands out in a text. -/
inductive Kind where
  | tagStart
  | tagName
  | tagContents
  | tagEnd
  | attributeName
  | attributeValue
  | brace
  | address
  | uuid
  | call
  | trueWord
  | falseWord
  | noneWord
  | ellipsis
  | number
  | path
  | filename
  | quoted
  | url

/-- The style that sets a colour and switches attributes on or off. -/
def styled (c : Option Colour) (attributes : List (Attribute × Bool)) : Style :=
  { attributes := attributes, colour := c }

/-- How each of them is shown. -/
def Kind.style : Kind → Style
  | tagStart => styled none [(.bold, true)]
  | tagName => styled (some (.bright .magenta)) [(.bold, true)]
  | tagContents => styled (some .own) []
  | tagEnd => styled none [(.bold, true)]
  | attributeName => styled (some (.hue .yellow)) [(.italic, false)]
  | attributeValue => styled (some (.hue .magenta)) [(.italic, false)]
  | brace => styled none [(.bold, true)]
  | address => styled (some (.bright .green)) [(.bold, true)]
  | uuid => styled (some (.bright .yellow)) [(.bold, false)]
  | call => styled (some (.hue .magenta)) [(.bold, true)]
  | trueWord => styled (some (.bright .green)) [(.italic, true)]
  | falseWord => styled (some (.bright .red)) [(.italic, true)]
  | noneWord => styled (some (.hue .magenta)) [(.italic, true)]
  | ellipsis => styled (some (.hue .yellow)) []
  | number => styled (some (.hue .cyan)) [(.bold, true), (.italic, false)]
  | path => styled (some (.hue .magenta)) []
  | filename => styled (some (.bright .magenta)) []
  | quoted => styled (some (.hue .green)) [(.italic, false), (.bold, false)]
  | url =>
    styled (some (.bright .blue)) [(.underline, true), (.italic, false), (.bold, false)]

/-- A pattern that marks what it finds. -/
abbrev Finder := Pattern Kind

/-- Whether a character that is or is not there is part of a word. -/
def inWord (c : Option Char) : Bool := c.any Text.isWordChar

/-- Either end of a word. -/
def wordBorder : Finder := border fun a b => inWord a != inWord b

/-- A place that is no end of a word. -/
def noWordBorder : Finder := border fun a b => inWord a == inWord b

/-- A place after a character that passes a test, or at the start. -/
def after (accepts : Char → Bool) : Finder := border fun a _ => a.all accepts

/-- A character of a word. -/
def wordChar : Finder := char Text.isWordChar

/-- A character of a word, or one of some others. -/
def wordCharOr (others : String) : Finder :=
  char fun c => Text.isWordChar c || c ∈ others.toList

/-- A decimal digit. -/
def digit : Finder := char Char.isDigit

/-- A hexadecimal digit. -/
def hexDigit : Finder :=
  char fun c => c.isDigit || ('a' ≤ c && c ≤ 'f') || ('A' ≤ c && c ≤ 'F')

/-- A tag between angle brackets: the first bracket, a name, all the rest up to the last bracket. -/
def tag : Finder :=
  all [marked .tagStart (text "<"), marked .tagName (many (wordCharOr "-.:|")),
    marked .tagContents (many (char fun _ => true)), marked .tagEnd (text ">")]

/-- A name and a value with an equals sign between them. -/
def assignment : Finder :=
  all [marked .attributeName (between 1 50 wordChar), text "=",
    optional (marked .attributeValue
      (all [optional (text "\""), oneOrMore wordChar, optional (text "\"")]))]

/-- A bracket, a parenthesis or a brace. -/
def braces : Finder := marked .brace (anyOf "[]\x7b\x7d()")

/-- Four numbers with points between them. -/
def shortAddress : Finder :=
  marked .address (both (exactly 3 (both (between 1 3 digit) (text "."))) (between 1 3 digit))

/-- Groups of hexadecimal digits with one or two colons between them. -/
def longAddress : Finder :=
  marked .address
    (both (between 1 7 (all [between 1 4 hexDigit, text ":", optional (text ":")]))
      (between 1 4 hexDigit))

/-- So many pairs of hexadecimal digits with hyphens or colons between them, or half as many groups
of four with points. -/
def hardwareAddress (pairs : Nat) : Finder :=
  let joined (mark : String) : Finder :=
    both (exactly (pairs - 1) (both (between 1 2 hexDigit) (text mark))) (between 1 2 hexDigit)
  let fours : Finder :=
    both (exactly (pairs / 2 - 1) (both (exactly 4 hexDigit) (text "."))) (exactly 4 hexDigit)
  marked .address (oneOf [joined "-", joined ":", fours])

/-- Groups of eight, four, four, four and twelve hexadecimal digits. -/
def uuidPattern : Finder :=
  let group (count : Nat) : Finder := both (exactly count hexDigit) (text "-")
  marked .uuid (all [group 8, group 4, group 4, group 4, exactly 12 hexDigit])

/-- A name before a parenthesis. -/
def callPattern : Finder :=
  both (marked .call (times 0 none false (wordCharOr "."))) (text "(")

/-- The words for the truth values and for nothing. -/
def constant : Finder :=
  let word (kind : Kind) (s : String) : Finder := all [wordBorder, marked kind (text s), wordBorder]
  oneOf [word .trueWord "True", word .falseWord "False", word .noneWord "None"]

/-- A sign. -/
def sign : Finder := anyOf "-+"

/-- The digits of a number with a point among them. -/
def decimal : Finder := all [oneOrMore digit, optional (text "."), many digit]

/-- An exponent, of as few digits as possible or as many. -/
def exponent (greedy : Bool) : Finder :=
  all [text "e", optional sign, times 1 none greedy digit]

/-- A number with an imaginary part. -/
def complexNumber : Finder :=
  marked .number
    (all [after (fun c => !Text.isWordChar c), optional (text "-"), decimal,
      optional (exponent false),
      optional (all [sign, decimal, optional (exponent true)]), text "j"])

/-- A number. -/
def number : Finder :=
  marked .number
    (either
      (all [after (fun c => !Text.isWordChar c), optional (text "-"), decimal,
        optional (exponent false), wordBorder])
      (both (text "0x") (many hexDigit)))

/-- A path up to its last slash, and the name after it. -/
def pathPattern : Finder :=
  let name : Finder := wordCharOr "-.+"
  both
    (marked .path
      (all [noWordBorder, many (both (text "/") (oneOrMore name)), text "/"]))
    (optional (marked .filename (many name)))

/-- A text between quotes of one kind, on one line; a backslash keeps a quote from closing it. -/
def quotedBy (quote : String) : Finder :=
  all [optional (text "b"), text quote, times 0 none false (char (· ≠ '\n')),
    after (· ≠ '\\'), text quote]

/-- A text between quotes. -/
def quotation : Finder :=
  both (after fun c => c ≠ '\\' && !Text.isWordChar c)
    (marked .quoted
      (oneOf [quotedBy "\x27\x27\x27", quotedBy "\x27", quotedBy "\"\"\"", quotedBy "\""]))

/-- An address of the web or of a file. -/
def urlPattern : Finder :=
  let scheme : Finder := oneOf (["file", "https", "http", "ws", "wss"].map text)
  let part (c : Char) : Bool := c.isAlphanum || c ∈ "-$_+!\x60(),.?/;:&=%#~@".toList
  marked .url (all [scheme, text "://", many (char part)])

/-- All patterns in the order in which they are applied. -/
def finders : List Finder :=
  [tag, assignment, braces,
    oneOf [shortAddress, longAddress, hardwareAddress 8, hardwareAddress 6, uuidPattern,
      callPattern, constant, marked .ellipsis (text "..."), complexNumber, number, pathPattern,
      quotation, urlPattern]]

/-- The styles of what stands out in a text. -/
def spans (cs : List Char) : List Span :=
  (finders.flatMap fun p => p.find cs).map fun s => ⟨s.start, s.stop, s.mark.style⟩

end Highlight

end LintGateway.Console
