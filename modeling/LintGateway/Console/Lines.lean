import LintGateway.Console.Markup
import LintGateway.Console.Output

/-!
# Sections and status lines

The two kinds of lines that a summary is made of. A section is headed by its title, with colours in
the middle of a rule as wide as the screen; then the title may carry markup, and what stands out in
it is highlighted. A status line has a tone, which decides its glyph and its colour.
-/

set_option autoImplicit false

namespace LintGateway.Console

/-- The tone of a status line. -/
inductive Tone where
  | clean
  | findings
  | detail
deriving DecidableEq, Repr

namespace Tone

/-- The name of a tone. -/
def name : Tone → String
  | clean => "clean"
  | findings => "findings"
  | detail => "detail"

/-- The tone of a name. -/
def ofName? (text : String) : Option Tone := [clean, findings, detail].find? fun t => t.name = text

/-- The glyph of a tone. -/
def glyph : Tone → String
  | clean => "✅"
  | findings => "⚠️"
  | detail => "•"

/-- The colour of a tone. -/
def colour : Tone → Colour
  | clean => .hue .green
  | findings => .hue .yellow
  | detail => .hue .cyan

end Tone

/-- How many cells the screen is wide. -/
def screenWidth : Nat := 80

/-- The widest title that is not cut: a bar and a space fit on either side of it. -/
def maxTitleWidth : Nat := screenWidth - 4

/-- A piece of the bar of a rule. -/
def bar (cells : Nat) : String := String.ofList (List.replicate cells '─')

/-- The pieces of a text between the borders of the spans in it, each in the style of the spans
that it lies in. -/
def piecesOf (cs : List Char) (spans : List Span) : List Piece :=
  let borders := spans.flatMap fun s => [s.start, s.stop]
  let borders := (0 :: cs.length :: borders).filter (· ≤ cs.length)
  let borders := (borders.mergeSort (· ≤ ·)).eraseDups
  (borders.zip borders.tail).map fun (start, stop) =>
    let inside := spans.filter fun s => s.start ≤ start && stop ≤ s.stop
    { text := String.ofList ((cs.drop start).take (stop - start))
      style := inside.foldl (fun style s => style.under s.style) {} }

/-- Pieces with the characters of a text in the place of theirs, one for one. What the text has more
goes without a style, and what it has less is left out. -/
def retext : List Char → List Piece → List Piece
  | cs, [] => [⟨String.ofList cs, {}⟩]
  | cs, p :: ps =>
    let count := p.text.length
    { p with text := String.ofList (cs.take count) } :: retext (cs.drop count) ps

/-- The characters of pieces. -/
def charsOf (ps : List Piece) : List Char := ps.flatMap fun p => p.text.toList

/-- A title on one line, cut to the widest that fits. -/
def shownTitle (title : String) : Except MarkupError (List Piece) :=
  (Markup.read isShown title).map fun (cs, spans) =>
    let line := cs.map fun c => if c = '\n' then ' ' else c
    let pieces := expandTabs (piecesOf line (Highlight.spans cs ++ spans))
    let chars := charsOf pieces
    if maxTitleWidth < Text.width chars then
      retext (Text.takeCells (maxTitleWidth - 1) chars ++ ['…']) pieces
    else pieces

/-- The rule with a title in its middle. -/
def rule (title : String) : Except MarkupError (List Piece) :=
  let bright := Style.ofColour (.bright .green)
  if title.isEmpty then .ok [⟨bar screenWidth, bright⟩]
  else
    (shownTitle title).map fun shown =>
      let width := Text.width (charsOf shown)
      let left := (screenWidth - width) / 2 - 1
      ⟨bar left ++ " ", bright⟩ :: shown ++
        [⟨" " ++ bar (screenWidth - (left + 1 + width + 1)), bright⟩]

/-- What is written for the head of a section. -/
def sectionHead (s : Screen) (title : String) : Except MarkupError String :=
  if s.colour then (rule title).map fun ps => s.print [] ++ s.print ps
  else .ok (s.print [⟨"\n--- " ++ title ++ " ---", {}⟩])

/-- What is written for a status line. -/
def status (s : Screen) (tone : Tone) (withGlyph : Bool) (indent : Nat) (message : String) :
    String :=
  let glyph := if withGlyph then tone.glyph ++ " " else ""
  s.print
    [⟨String.ofList (List.replicate indent ' ') ++ glyph, {}⟩,
      ⟨message, if s.colour then .ofColour tone.colour else {}⟩]

end LintGateway.Console
