/-!
# Patterns in texts

A pattern says which stretches of a text are of interest. It is made of single characters, of tests
at a border between two characters, and of sequences, choices and repetitions of patterns; parts of
it may be marked, and a match tells where the marked parts stand. Of several matches from one place
the first one counts: the earlier choice, and as many or as few repetitions as the pattern asks for.
-/

set_option autoImplicit false

namespace LintGateway.Text

/-- A pattern with marks of type `α`. A repetition is at least `least` and at most `most` times,
with `greedy` as often as possible and otherwise as rarely as possible. -/
inductive Pattern (α : Type) where
  | char (accepts : Char → Bool)
  | border (accepts : Option Char → Option Char → Bool)
  | both (first second : Pattern α)
  | either (first second : Pattern α)
  | times (least : Nat) (most : Option Nat) (greedy : Bool) (p : Pattern α)
  | marked (mark : α) (p : Pattern α)

/-- A marked stretch of a text: the characters from `start` on and before `stop`. -/
structure Stretch (α : Type) where
  mark : α
  start : Nat
  stop : Nat

/-- A place in a text that is being matched: how many characters are before it, the last one of
them, those after it, and the stretches marked so far. -/
structure Cursor (α : Type) where
  position : Nat
  before : Option Char
  rest : List Char
  marks : List (Stretch α)

namespace Pattern

variable {α : Type}

/-- How a match goes on, and whether it succeeds. -/
abbrev Next (α : Type) := Cursor α → Option (Cursor α)

/-- The first outcome, or the second one when the first one failed. -/
def firstOf (first second : Unit → Option (Cursor α)) : Option (Cursor α) :=
  match first () with
  | some c => some c
  | none => second ()

/-- Matches `step` again and again, having done so `done` times, at most `fuel` times more. Every
repetition takes at least one character. -/
def repeatFrom (step : Next α → Next α) (least : Nat) (most : Option Nat) (greedy : Bool)
    (next : Next α) : Nat → Nat → Next α
  | 0, done, c => if least ≤ done then next c else none
  | fuel + 1, done, c =>
    let stop (_ : Unit) : Option (Cursor α) := if least ≤ done then next c else none
    let onward (d : Cursor α) : Option (Cursor α) :=
      if c.position < d.position then repeatFrom step least most greedy next fuel (done + 1) d
      else none
    let again (_ : Unit) : Option (Cursor α) :=
      if most.all (done < ·) then step onward c else none
    if greedy then firstOf again stop else firstOf stop again

/-- The end of the first match of a pattern at a cursor after which `next` succeeds. -/
def matchAt : Pattern α → Next α → Next α
  | char accepts, next, c =>
    match c.rest with
    | [] => none
    | x :: xs =>
      if accepts x then next { c with position := c.position + 1, before := some x, rest := xs }
      else none
  | border accepts, next, c => if accepts c.before c.rest.head? then next c else none
  | both p q, next, c => matchAt p (matchAt q next) c
  | either p q, next, c => firstOf (fun _ => matchAt p next c) fun _ => matchAt q next c
  | times least most greedy p, next, c =>
    repeatFrom (matchAt p) least most greedy next (c.rest.length + 1) 0 c
  | marked mark p, next, c =>
    let closing (d : Cursor α) : Option (Cursor α) :=
      next { d with marks := d.marks ++ [⟨mark, c.position, d.position⟩] }
    matchAt p closing c

/-- The marked stretches of the matches in a text, each match starting where the one before it ends
or later; the first argument counts the characters still to be skipped of a match. -/
def findFrom (p : Pattern α) : Nat → Nat → Option Char → List Char → List (Stretch α)
  | _, _, _, [] => []
  | skip + 1, position, _, c :: cs => findFrom p skip (position + 1) (some c) cs
  | 0, position, before, c :: cs =>
    match p.matchAt some ⟨position, before, c :: cs, []⟩ with
    | some d => d.marks ++ findFrom p (d.position - position - 1) (position + 1) (some c) cs
    | none => findFrom p 0 (position + 1) (some c) cs

/-- The marked stretches of the matches in a text, those that are not empty. -/
def find (p : Pattern α) (cs : List Char) : List (Stretch α) :=
  (findFrom p 0 0 none cs).filter fun s => s.start < s.stop

/-- A pattern or nothing, the pattern if possible. -/
def optional (p : Pattern α) : Pattern α := times 0 (some 1) true p

/-- Any number of repetitions, as many as possible. -/
def many (p : Pattern α) : Pattern α := times 0 none true p

/-- At least one repetition, as many as possible. -/
def oneOrMore (p : Pattern α) : Pattern α := times 1 none true p

/-- Exactly so many repetitions. -/
def exactly (count : Nat) (p : Pattern α) : Pattern α := times count (some count) true p

/-- Between so many repetitions, as many as possible. -/
def between (least most : Nat) (p : Pattern α) : Pattern α := times least (some most) true p

/-- Nothing at all. -/
def nothing : Pattern α := border fun _ _ => true

/-- Patterns one after the other. -/
def all (ps : List (Pattern α)) : Pattern α := ps.foldr both nothing

/-- One of some patterns, the first one that leads to a match. -/
def oneOf : List (Pattern α) → Pattern α
  | [] => border fun _ _ => false
  | [p] => p
  | p :: ps => either p (oneOf ps)

/-- One character out of some. -/
def anyOf (cs : String) : Pattern α := char fun c => c ∈ cs.toList

/-- The characters of a text in their order. -/
def text (s : String) : Pattern α := all (s.toList.map fun c => char (· = c))

end Pattern

end LintGateway.Text
