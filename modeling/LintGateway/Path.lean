import LintGateway.Text.Split

/-!
# Paths

A path is where it starts and the segments it goes through. Reading a path from text drops empty
segments and `.` segments; `..` is kept as a segment like any other, because what it leads to
depends on links. A text with exactly two slashes in front starts at a root of its own.
-/

set_option autoImplicit false

namespace LintGateway

/-- Where a path starts: at the directory it is used in, at the root, or at the root that two
slashes name. -/
inductive Anchor where
  | here
  | root
  | twoSlashRoot
deriving DecidableEq, Repr

/-- A path of a file or a directory. -/
structure Path where
  anchor : Anchor
  segments : List String
deriving DecidableEq, Repr

namespace Path

/-- Where a path with a given number of slashes in front starts. -/
def anchorOfSlashes : Nat → Anchor
  | 0 => .here
  | 2 => .twoSlashRoot
  | _ => .root

/-- The path that a text denotes. -/
def ofText (s : String) : Path :=
  { anchor := anchorOfSlashes (s.toList.takeWhile (· = '/')).length
    segments := (Text.split '/' s).filter fun segment => segment ≠ "" && segment ≠ "." }

/-- The path of a text that is given by its characters. -/
theorem ofText_ofList (cs : List Char) :
    ofText (String.ofList cs) =
      { anchor := anchorOfSlashes (cs.takeWhile (· = '/')).length
        segments := ((Text.splitChars '/' cs).map String.ofList).filter fun segment =>
          segment ≠ "" && segment ≠ "." } := by
  unfold ofText Text.split
  simp only [String.toList_ofList]

/-- The path of a text as the system looks it up: a `.` counts as a name, and a slash at the end
stands for a `.` after it. The empty text has one empty name, which nothing has. -/
def ofRawText (s : String) : Path :=
  let parts := Text.split '/' s
  let closing := if parts.getLast? = some "" && s.toList.any (· ≠ '/') then ["."] else []
  { anchor := anchorOfSlashes (s.toList.takeWhile (· = '/')).length
    segments := if s.isEmpty then [""] else parts.filter (· ≠ "") ++ closing }

/-- The slashes in front of a path. -/
def anchorText : Anchor → String
  | .here => ""
  | .root => "/"
  | .twoSlashRoot => "//"

/-- The text of a path; the empty relative path is `.`. -/
def toText (p : Path) : String :=
  match p.anchor, p.segments with
  | .here, [] => "."
  | anchor, segments => anchorText anchor ++ "/".intercalate segments

/-- Whether a path starts at a root. -/
def isAbsolute (p : Path) : Bool := p.anchor ≠ .here

/-- Whether a segment of a path holds a null character, which no file has in its name. -/
def holdsNull (p : Path) : Bool := p.segments.any fun segment => segment.toList.contains '\x00'

/-- The path `p` as seen from `base`: `p` itself when it starts at a root. -/
def join (base p : Path) : Path :=
  if p.isAbsolute then p else { base with segments := base.segments ++ p.segments }

/-- The path of an entry of a directory. -/
def child (p : Path) (name : String) : Path := { p with segments := p.segments ++ [name] }

/-- The path without its last segment. -/
def parent (p : Path) : Path := { p with segments := p.segments.dropLast }

/-- The last segment of a path, empty when there is none. -/
def name (p : Path) : String := p.segments.getLast?.getD ""

/-- The part of a name from its last dot on, provided the dot is neither its first nor its last
character; empty otherwise. -/
def suffixOfName (name : String) : String :=
  let reversed := name.toList.reverse
  let after := reversed.takeWhile (· ≠ '.')
  let before := reversed.dropWhile (· ≠ '.')
  if after.isEmpty || before.length ≤ 1 then "" else String.ofList ('.' :: after.reverse)

/-- The suffix of the last segment of a path. -/
def suffix (p : Path) : String := suffixOfName p.name

end Path

end LintGateway
