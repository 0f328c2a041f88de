import LintGateway.Console.Highlight
import LintGateway.Text.Split

/-!
# Markup

A title may carry markup. A tag between brackets, such as `[bold red]`, switches a style on for what
follows; `[/bold red]` ends it, and `[/]` ends the style that was switched on last. A tag starts
with a small letter or with one of `#`, `/` and `@`; other brackets are text, and so is a tag after
a backslash. What is not ended ends with the text. A tag that ends nothing is an error.
-/

set_option autoImplicit false

namespace LintGateway.Console

/-- Why markup cannot be read: a tag ends a style that is not on, or there is none to end. -/
inductive MarkupError where
  | notOpen (name : String)
  | nothingOpen
deriving DecidableEq, Repr

namespace Markup

/-- A part of a text with markup. -/
inductive Token where
  | text (cs : List Char)
  | tag (content : List Char)

/-- Whether a tag may start with a character. -/
def opensTag (c : Char) : Bool := ('a' ≤ c && c ≤ 'z') || c ∈ ['#', '/', '@']

/-- The content of the tag after an opening bracket, and what follows it. -/
def tagContent? : List Char → Option (List Char × List Char)
  | [] => none
  | c :: cs =>
    let more := cs.takeWhile fun d => d ≠ '[' && d ≠ ']'
    match opensTag c, cs.dropWhile fun d => d ≠ '[' && d ≠ ']' with
    | true, ']' :: rest => some (c :: more, rest)
    | _, _ => none

/-- The tag at the start of a text, with the backslashes before it and what follows it. -/
def tagAt? (cs : List Char) : Option (Nat × List Char × List Char) :=
  let backslashes := cs.takeWhile (· = '\\')
  match cs.dropWhile (· = '\\') with
  | '[' :: rest => (tagContent? rest).map fun r => (backslashes.length, r)
  | _ => none

/-- A literal part of a text: a backslash before a bracket is dropped. -/
def literal (cs : List Char) : Token := .text (Text.replaceChars ['\\', '['] ['['] 0 cs)

/-- The tokens of a tag after so many backslashes: two of them stand for one, and one that is left
makes the tag literal. -/
def tokensOfTag (backslashes : Nat) (content : List Char) : List Token :=
  .text (List.replicate (backslashes / 2) '\\') ::
    (if backslashes % 2 = 1 then [literal ('[' :: content ++ [']'])] else [.tag content])

/-- The tokens of a text after the literal part `read`, given the last character first; the first
argument counts the characters of a tag still to be passed. -/
def tokens : Nat → List Char → List Char → List Token
  | _, read, [] => [literal read.reverse]
  | skip + 1, read, _ :: cs => tokens skip read cs
  | 0, read, c :: cs =>
    match tagAt? (c :: cs) with
    | some (backslashes, content, _) =>
      literal read.reverse :: tokensOfTag backslashes content ++
        tokens (backslashes + content.length + 1) [] cs
    | none => tokens 0 (c :: read) cs

/-- A tag that has been opened: where, its name in its one form, and what it describes. -/
structure OpenTag where
  start : Nat
  name : String
  description : String

/-- A text as far as it has been read: its characters, the tags that are open, the last one first,
and the styles of those that have been closed, the last one first. -/
structure Progress where
  chars : List Char
  opened : List OpenTag
  closed : List Span

namespace Progress

/-- The style of a tag that ends here. -/
def close (p : Progress) (t : OpenTag) : Span :=
  ⟨t.start, p.chars.length, (Style.read? t.description).getD {}⟩

/-- Ends a tag that is open, the last one of a name or, without a name, the last one. -/
def endTag (p : Progress) (name : String) : Except MarkupError Progress :=
  if name.isEmpty then
    match p.opened with
    | [] => .error .nothingOpen
    | t :: opened => .ok { p with opened := opened, closed := p.close t :: p.closed }
  else
    match p.opened.find? fun t => t.name = Style.normalize name with
    | none => .error (.notOpen name)
    | some t =>
      let opened := p.opened.eraseP fun t => t.name = Style.normalize name
      .ok { p with opened := opened, closed := p.close t :: p.closed }

/-- Opens a tag: a name, with an equals sign also a parameter. -/
def openTag (p : Progress) (content : List Char) : Progress :=
  let name := Style.normalize (String.ofList (content.takeWhile (· ≠ '=')))
  let description := match content.dropWhile (· ≠ '=') with
    | [] => name
    | _ :: parameter => name ++ " " ++ String.ofList parameter
  { p with opened := ⟨p.chars.length, name, description⟩ :: p.opened }

/-- Reads a token. -/
def step (keeps : Char → Bool) (p : Progress) : Token → Except MarkupError Progress
  | .text cs => .ok { p with chars := p.chars ++ cs.filter keeps }
  | .tag content =>
    match content.takeWhile (· ≠ '=') with
    | '/' :: name => p.endTag (Text.trim (String.ofList name))
    | _ => .ok (p.openTag content)

/-- The styles in the order in which they are shown one over the other: those that start later over
those that start earlier, and of those that start together the inner ones over the outer ones. -/
def spans (p : Progress) : List Span :=
  let closed := p.opened.foldl (fun closed t => p.close t :: closed) p.closed
  closed.mergeSort fun a b => a.start ≤ b.start

end Progress

/-- The text without its markup and the styles in it; of the characters only those that `keeps`
accepts are kept. -/
def read (keeps : Char → Bool) (title : String) : Except MarkupError (List Char × List Span) :=
  if title.toList.contains '[' then
    ((tokens 0 [] title.toList).foldlM (Progress.step keeps) ⟨[], [], []⟩).map fun p =>
      (p.chars, p.spans)
  else .ok (title.toList.filter keeps, [])

end Markup

end LintGateway.Console
