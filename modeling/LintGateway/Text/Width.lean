import LintGateway.Text.Case
import LintGateway.Text.WidthTable

/-!
# Widths of texts

How many cells of a terminal a text takes. A text is cut into clusters: a character without a width
belongs to the one before it, a zero-width joiner takes the character after it into the picture
before it, and the variation selector for pictures widens a narrow picture.
-/

set_option autoImplicit false

namespace LintGateway.Text

/-- The joiner of pictures. -/
def joiner : Char := '\u200d'

/-- The selector that asks for the form of a picture. -/
def pictureSelector : Char := '\ufe0f'

/-- How many cells a character takes by itself. -/
def charWidth (c : Char) : Nat :=
  if c.toNat < 0x20 then 0
  else if c.toNat < 0x7f then 1
  else if inRanges weightlessRanges c then 0
  else if inRanges wideRanges c then 2
  else 1

/-- Characters that are drawn as one picture, and the cells that it takes. -/
structure Cluster where
  chars : List Char
  cells : Nat
deriving DecidableEq, Repr

/-- What a text adds to the cluster before it, and the clusters after that one. The last character
with a width of its own is given as long as it can still be widened. -/
def clustersAfter (last : Option Char) : List Char → Cluster × List Cluster
  | [] => (⟨[], 0⟩, [])
  | c :: cs =>
    if c = joiner then
      match cs with
      | [] => (⟨[c], 0⟩, [])
      | joined :: cs =>
        let (more, others) := clustersAfter last cs
        ({ more with chars := c :: joined :: more.chars }, others)
    else if c = pictureSelector then
      let (more, others) := clustersAfter none cs
      let gained := if last.any (inRanges narrowPictureRanges) then 1 else 0
      (⟨c :: more.chars, gained + more.cells⟩, others)
    else
      let own := charWidth c
      let (more, others) := clustersAfter (if own = 0 then last else some c) cs
      let cluster : Cluster := ⟨c :: more.chars, own + more.cells⟩
      if own = 0 then (cluster, others) else (⟨[], 0⟩, cluster :: others)

/-- The clusters of a text; the first one holds what comes before a character with a width. -/
def clusters (cs : List Char) : List Cluster :=
  let (first, others) := clustersAfter none cs
  first :: others

/-- How many cells a text takes. -/
def width (cs : List Char) : Nat := (clusters cs).foldl (fun cells k => cells + k.cells) 0

/-- The first clusters, as far as `cells` cells reach; spaces stand for the part of a cluster that
does not fit as a whole. -/
def takeClusters : Nat → List Cluster → List Char
  | _, [] => []
  | cells, k :: ks =>
    if k.cells ≤ cells then k.chars ++ takeClusters (cells - k.cells) ks
    else List.replicate cells ' '

/-- The start of a text that takes `cells` cells. -/
def takeCells (cells : Nat) (cs : List Char) : List Char := takeClusters cells (clusters cs)

end LintGateway.Text
