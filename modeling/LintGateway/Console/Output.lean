import LintGateway.Console.Style
import LintGateway.Text.Width

/-!
# Printing in colour

A printed text is a list of pieces, each in a style of its own. Styles are written only when colours
are wanted and the output is a terminal; then every piece of a line is switched on and off by
itself. Control characters that would move the cursor are left out, and a tab becomes spaces up to
the next stop.
-/

set_option autoImplicit false

namespace LintGateway.Console

/-- What the standard output is: some file, a terminal, a stream that is closed, or nothing. -/
inductive Output where
  | plain
  | terminal
  | closed
  | absent
deriving DecidableEq, Repr

/-- Whether the standard output is known to be a terminal. -/
def Output.isTerminal : Output → Bool
  | terminal => true
  | _ => false

/-- A text in one style. -/
structure Piece where
  text : String
  style : Style := {}
deriving DecidableEq, Repr

/-- Whether a character is shown: not the bell, the backspace, the vertical tab, the form feed and
the carriage return. -/
def isShown (c : Char) : Bool := c ∉ ['\x07', '\x08', '\x0b', '\x0c', '\r']

/-- A piece without the characters that are not shown. -/
def Piece.shown (p : Piece) : Piece :=
  { p with text := String.ofList (p.text.toList.filter isShown) }

/-- How many cells there are from one stop of the tabs to the next. -/
def tabSize : Nat := 8

/-- Where the tabs of a line leave it: the cells up to the last stop, and the characters after it,
the last one first. -/
structure TabState where
  cells : Nat := 0
  since : List Char := []

/-- A text in a style with spaces for its tabs, from a place in its line on; `read` are the
characters of the piece so far, the last one first. A piece ends at every stop. -/
def expandPiece (style : Style) (read : List Char) :
    TabState → List Char → List Piece × TabState
  | t, [] => ([⟨String.ofList read.reverse, style⟩], t)
  | t, c :: cs =>
    if c = '\t' then
      let reached := t.cells + Text.width ((' ' :: t.since).reverse)
      let padding := (tabSize - reached % tabSize) % tabSize
      let here := read.reverse ++ List.replicate (padding + 1) ' '
      let (pieces, t) := expandPiece style [] ⟨reached + padding, []⟩ cs
      (⟨String.ofList here, style⟩ :: pieces, t)
    else expandPiece style (c :: read) { t with since := c :: t.since } cs

/-- The pieces of a line with spaces for the tabs, from a place in the line on. -/
def expandTabsFrom (t : TabState) : List Piece → List Piece
  | [] => []
  | p :: ps =>
    let (pieces, t) := expandPiece p.style [] t p.text.toList
    pieces ++ expandTabsFrom t ps

/-- The pieces of a line with spaces for the tabs. -/
def expandTabs (ps : List Piece) : List Piece := expandTabsFrom {} ps

/-- An output together with the wish for colours. -/
structure Screen where
  output : Output
  colour : Bool
deriving DecidableEq, Repr

namespace Screen

/-- The screen of an output; without a wish there are colours exactly on a terminal. -/
def ofWish (output : Output) (wish : Option Bool) : Screen :=
  ⟨output, wish.getD output.isTerminal⟩

/-- Whether colours are written. -/
def writesColours (s : Screen) : Bool := s.colour && s.output.isTerminal

/-- A piece of a line as it is written. -/
def writePiece (s : Screen) (p : Piece) : String :=
  if s.writesColours then p.style.write p.text else p.text

/-- The lines of pieces: the rest of the first line, and those after it. -/
def linesOf : List Piece → List Piece × List (List Piece)
  | [] => ([], [])
  | p :: ps =>
    let (line, lines) := linesOf ps
    match (Text.split '\n' p.text).map fun t => { p with text := t } with
    | [] => (line, lines)
    | first :: more =>
      match more.reverse with
      | [] => (first :: line, lines)
      | last :: between => ([first], between.reverse.map (fun q => [q]) ++ (last :: line) :: lines)

/-- What is written for a text: each of its lines with a line feed. -/
def print (s : Screen) (ps : List Piece) : String :=
  if s.output = .absent then ""
  else
    let (first, others) := linesOf (ps.map Piece.shown)
    let write (line : List Piece) : String :=
      String.join ((expandTabs line).map s.writePiece) ++ "\n"
    String.join ((first :: others).map write)

end Screen

end LintGateway.Console
