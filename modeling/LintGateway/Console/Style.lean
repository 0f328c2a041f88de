import LintGateway.Text.Case
import LintGateway.Text.Split
import LintGateway.Text.Blank

/-!
# Styles of printed text

A style says which attributes of a text are switched on or off, and in which colours it is shown and
on which ground. Styles have a written form, a list of words such as `bold red on white`, and on a
terminal a style is switched on by the codes of what it sets.
-/

set_option autoImplicit false

namespace LintGateway.Console

/-- What a text can be shown as, apart from its colours. -/
inductive Attribute where
  | bold
  | dim
  | italic
  | underline
  | blink
  | blink2
  | reverse
  | conceal
  | strike
  | underline2
  | frame
  | encircle
  | overline
deriving DecidableEq, Repr

namespace Attribute

/-- The attributes in their order, each with its name, its short name if it has one, and the code
that switches it on. -/
def table : List (Attribute × String × Option String × String) :=
  [(bold, "bold", some "b", "1"), (dim, "dim", some "d", "2"), (italic, "italic", some "i", "3"),
    (underline, "underline", some "u", "4"), (blink, "blink", none, "5"),
    (blink2, "blink2", none, "6"), (reverse, "reverse", some "r", "7"),
    (conceal, "conceal", some "c", "8"), (strike, "strike", some "s", "9"),
    (underline2, "underline2", some "uu", "21"), (frame, "frame", none, "51"),
    (encircle, "encircle", none, "52"), (overline, "overline", some "o", "53")]

/-- The attribute of a name. -/
def ofName? (word : String) : Option Attribute :=
  (table.find? fun e => e.2.1 = word || e.2.2.1 = some word).map Prod.fst

end Attribute

/-- The hues of a terminal. -/
inductive Hue where
  | black
  | red
  | green
  | yellow
  | blue
  | magenta
  | cyan
  | white
deriving DecidableEq, Repr

/-- The hues in the order of their numbers, with their names. -/
def Hue.table : List (Hue × String) :=
  [(.black, "black"), (.red, "red"), (.green, "green"), (.yellow, "yellow"), (.blue, "blue"),
    (.magenta, "magenta"), (.cyan, "cyan"), (.white, "white")]

/-- The number of a hue. -/
def Hue.number (h : Hue) : Nat := (Hue.table.map Prod.fst).idxOf h

/-- A colour of the console: a hue, a bright one, or what the terminal shows by itself. -/
inductive Colour where
  | hue (h : Hue)
  | bright (h : Hue)
  | own
deriving DecidableEq, Repr

namespace Colour

/-- The colours with their names. -/
def table : List (Colour × String) :=
  Hue.table.map (fun e => (hue e.1, e.2)) ++
    Hue.table.map (fun e => (bright e.1, "bright_" ++ e.2)) ++ [(own, "default")]

/-- The colour of a name. -/
def ofName? (word : String) : Option Colour := (table.find? fun e => e.2 = word).map Prod.fst

/-- The name of a colour. -/
def name (c : Colour) : String := (table.lookup c).getD ""

/-- The code that switches a colour on, for the text or for the ground behind it. -/
def code (ground : Bool) : Colour → String
  | hue h => toString (h.number + if ground then 40 else 30)
  | bright h => toString (h.number + if ground then 100 else 90)
  | own => if ground then "49" else "39"

end Colour

/-- How a text is shown. -/
structure Style where
  attributes : List (Attribute × Bool) := []
  colour : Option Colour := none
  ground : Option Colour := none
deriving DecidableEq, Repr

namespace Style

/-- A style that sets nothing but the colour of the text. -/
def ofColour (c : Colour) : Style := { colour := some c }

/-- Sets an attribute. -/
def set (s : Style) (a : Attribute) (on : Bool) : Style :=
  { s with attributes := (s.attributes.filter fun e => e.1 ≠ a) ++ [(a, on)] }

/-- A style with another one over it, which wins in all that it sets. -/
def under (s top : Style) : Style :=
  { top.attributes.foldl (fun s e => s.set e.1 e.2) s with
    colour := top.colour.or s.colour
    ground := top.ground.or s.ground }

/-- The codes that switch a style on. -/
def codes (s : Style) : List String :=
  let on := Attribute.table.filter fun e => s.attributes.lookup e.1 = some true
  on.map (fun e => e.2.2.2) ++ (s.colour.map (Colour.code false)).toList ++
    (s.ground.map (Colour.code true)).toList

/-- A text as it is written in a style. -/
def write (s : Style) (text : String) : String :=
  if s.codes.isEmpty || text.isEmpty then text
  else "\x1b[" ++ ";".intercalate s.codes ++ "m" ++ text ++ "\x1b[0m"

/-- The words of a text, which blanks part. -/
def words (cs : List Char) : List String :=
  let marked := cs.map fun c => if Text.isBlank c then ' ' else c
  ((Text.splitChars ' ' marked).filter fun w => !w.isEmpty).map String.ofList

/-- Adds what a list of words sets to a style. -/
def readWords (s : Style) : List String → Option Style
  | [] => some s
  | word :: rest =>
    match Text.lower word, rest with
    | "on", ground :: rest =>
      (Colour.ofName? (Text.lower ground)).bind fun c => readWords { s with ground := some c } rest
    | "on", [] => none
    | "not", name :: rest =>
      (Attribute.ofName? name).bind fun a => readWords (s.set a false) rest
    | "not", [] => none
    | word, rest =>
      match Attribute.ofName? word with
      | some a => readWords (s.set a true) rest
      | none =>
        (Colour.ofName? word).bind fun c => readWords { s with colour := some c } rest

/-- The style that a text describes. -/
def read? (text : String) : Option Style :=
  match words text.toList with
  | ["none"] => some {}
  | ws => readWords {} ws

/-- The description of a style: its attributes in their order, its colour and its ground. -/
def describe (s : Style) : String :=
  let wordsOf (e : Attribute × String × Option String × String) : Option String :=
    (s.attributes.lookup e.1).map fun on => if on then e.2.1 else "not " ++ e.2.1
  let parts := Attribute.table.filterMap wordsOf ++ (s.colour.map Colour.name).toList ++
    (s.ground.map fun c => "on " ++ c.name).toList
  if parts.isEmpty then "none" else " ".intercalate parts

/-- One form for all descriptions of a style; a text that describes none only loses its case and the
blanks around it. -/
def normalize (text : String) : String :=
  match read? text with
  | some s => s.describe
  | none => Text.lower (Text.trim text)

end Style

end LintGateway.Console
