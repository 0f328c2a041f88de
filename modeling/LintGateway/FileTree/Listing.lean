import LintGateway.FileTree.Basic

/-!
# Listing the files of a tree

All files below a directory, top down: first those in the directory itself by name, then those of
its subdirectories, by the name of the subdirectory. Every entry that is no directory counts as a
file, a link as well, unless it leads to a directory; directories are entered when they are
directories themselves and their name is accepted.
-/

set_option autoImplicit false

namespace LintGateway.FileTree

/-- What an entry of a directory contributes to a listing. -/
inductive Contribution where
  | file
  | below (places : List (List String))
  | nothing

/-- Puts the contributions of the entries of the directory at `place` in the order of a listing. -/
def arrange (place : List String) (entries : List (String × Contribution)) : List (List String) :=
  let sorted := entries.mergeSort fun a b => a.1 ≤ b.1
  let files := sorted.filterMap fun
    | (name, .file) => some (place ++ [name])
    | _ => none
  let below := sorted.flatMap fun
    | (_, .below places) => places
    | _ => []
  files ++ below

/-- What each entry of the directory at `place` contributes. -/
def contributions (t : FileTree) (enters : String → Bool) (place : List String) :
    List (String × Node) → List (String × Contribution)
  | [] => []
  | (name, node) :: entries =>
    let here := match node with
      | .file _ _ => .file
      | .link _ => if t.isDirectory ⟨.root, place ++ [name]⟩ then .nothing else .file
      | .directory below =>
        if enters name then
          .below (arrange (place ++ [name]) (contributions t enters (place ++ [name]) below))
        else .nothing
    (name, here) :: contributions t enters place entries

/-- The files below a node that stands at `place`. -/
def filesBelow (t : FileTree) (enters : String → Bool) (place : List String) :
    Node → List (List String)
  | .directory entries => arrange place (contributions t enters place entries)
  | _ => []

/-- The files below the directory that a path resolves to, none when there is no such directory. -/
def listing (t : FileTree) (enters : String → Bool) (p : Path) : Except FileError (List Path) :=
  match t.resolve p with
  | .error e => .error e
  | .ok base =>
    match t.node base with
    | .ok node => .ok ((filesBelow t enters base.segments node).map fun place => ⟨.root, place⟩)
    | .error _ => .ok []

end LintGateway.FileTree
