import LintGateway.Path
import LintGateway.Value.Basic

/-!
# File trees

The files that a run reads and writes form a tree of directories with files and symbolic links in
it, together with the directory from which relative paths start. Nothing here touches a disk: a tree
is a value, reading asks it and writing gives a new one.

A path is followed segment by segment. `locate` insists that everything on the way is there and
gives the place it leads to, free of links; it follows a limited number of links. `resolve` also
accepts paths that lead nowhere and follows any number of links, but none that it has not come to
the end of.
-/

set_option autoImplicit false

namespace LintGateway

/-- Why a file or directory cannot be used. -/
inductive FileError where
  | missing
  | notDirectory
  | isDirectory
  | alreadyThere
  | denied
  | linkLoop
  | nameTooLong
  | nullInName
deriving DecidableEq, Repr

namespace FileError

/-- The sentence for a file error. -/
def message : FileError → String
  | missing => "No such file or directory"
  | notDirectory => "Not a directory"
  | isDirectory => "Is a directory"
  | alreadyThere => "File exists"
  | denied => "Permission denied"
  | linkLoop => "Too many levels of symbolic links"
  | nameTooLong => "File name too long"
  | nullInName => "embedded null byte"

/-- The number of the operating system for a file error. -/
def number : FileError → Nat
  | missing => 2
  | denied => 13
  | alreadyThere => 17
  | notDirectory => 20
  | isDirectory => 21
  | nullInName => 22
  | nameTooLong => 36
  | linkLoop => 40

end FileError

/-- An entry of a directory, or the directory at the top. -/
inductive Node where
  | file (content : ByteArray) (mode : Nat)
  | directory (entries : List (String × Node))
  | link (target : String)
deriving Inhabited

namespace Node

/-- The directory without entries. -/
def emptyDirectory : Node := directory []

/-- The node that a list of names leads to, no link on the way being followed. -/
def get? : Node → List String → Option Node
  | node, [] => some node
  | directory entries, name :: names => (Members.get? entries name).bind fun node => node.get? names
  | _, _ :: _ => none

/-- Puts a node at a place, with the directories on the way that are not there yet. Where a file or
a link is in the way nothing changes. -/
def set (new : Node) : List String → Node → Node
  | [], _ => new
  | name :: names, directory entries =>
    let old := (Members.get? entries name).getD emptyDirectory
    directory (Members.put entries name (set new names old))
  | _ :: _, node => node

/-- Whether a node is a directory. -/
def isDirectory : Node → Bool
  | directory _ => true
  | _ => false

/-- Whether a node is a file. -/
def isFile : Node → Bool
  | file _ _ => true
  | _ => false

/-- Whether a node is a link. -/
def isLink : Node → Bool
  | link _ => true
  | _ => false

mutual

/-- How many of the nodes from a node on down pass a test. -/
def count (test : Node → Bool) : Node → Nat
  | directory entries =>
    (if test (directory entries) then 1 else 0) + countBelow test entries
  | file content mode => if test (file content mode) then 1 else 0
  | link target => if test (link target) then 1 else 0

/-- How many of the nodes below the entries of a directory pass a test. -/
def countBelow (test : Node → Bool) : List (String × Node) → Nat
  | [] => 0
  | (_, node) :: entries => count test node + countBelow test entries

end

end Node

/-- The top directory and the place from which relative paths start. -/
structure FileTree where
  root : Node
  here : List String

namespace FileTree

/-- How many links a look-up may follow on the way to one place. -/
def maxLinks : Nat := 40

/-- How many bytes the name of an entry may have. -/
def maxNameLength : Nat := 255

/-- How many bytes the text of a path may have in a look-up. -/
def maxPathLength : Nat := 4095

/-- Where a path starts in the tree. -/
def start (t : FileTree) (p : Path) : List String := if p.isAbsolute then [] else t.here

/-- The place that `todo` leads to from the directory at `done`; `onLink` says how to go on from a
directory with the target of a link and what follows it. With `keepLast` a link at the end is the
place itself. -/
def locateFrom (t : FileTree) (keepLast : Bool)
    (onLink : List String → Path → List String → Except FileError (List String))
    (done : List String) : List String → Except FileError (List String)
  | [] => .ok done
  | name :: rest =>
    match t.root.get? done with
    | some (.directory entries) =>
      if name = "." then locateFrom t keepLast onLink done rest
      else if name = ".." then locateFrom t keepLast onLink done.dropLast rest
      else if maxNameLength < name.utf8ByteSize then .error .nameTooLong
      else
        match Members.get? entries name with
        | none => .error .missing
        | some (.link target) =>
          if keepLast && rest.isEmpty then .ok (done ++ [name])
          else onLink done (Path.ofRawText target) rest
        | some _ => locateFrom t keepLast onLink (done ++ [name]) rest
    | _ => .error .notDirectory

/-- The same with at most a given number of links on the way. -/
def locateWithin (t : FileTree) (keepLast : Bool) :
    Nat → List String → List String → Except FileError (List String)
  | 0, done, todo => locateFrom t keepLast (fun _ _ _ => .error .linkLoop) done todo
  | links + 1, done, todo =>
    let onLink (done : List String) (target : Path) (rest : List String) :=
      locateWithin t keepLast links (if target.isAbsolute then [] else done)
        (target.segments ++ rest)
    locateFrom t keepLast onLink done todo

/-- The place that a path leads to, when everything on the way is there; with `keepLast` a link at
the end is the place itself. -/
def locate (t : FileTree) (p : Path) (keepLast : Bool) : Except FileError (List String) :=
  if p.holdsNull then .error .nullInName
  else if maxPathLength < p.toText.utf8ByteSize then .error .nameTooLong
  else locateWithin t keepLast maxLinks (t.start p) p.segments

/-- The node that a path leads to. -/
def node (t : FileTree) (p : Path) : Except FileError Node :=
  match t.locate p false with
  | .error e => .error e
  | .ok place =>
    match t.root.get? place with
    | some node => .ok node
    | none => .error .missing

/-- The place that names lead to from the place `done` when none of them is a link. -/
def resolvePlainly (done : List String) : List String → List String
  | [] => done
  | name :: rest => resolvePlainly (if name = ".." then done.dropLast else done ++ [name]) rest

/-- The place that `todo` leads to from the place `done`, where what is not there counts as a
directory without entries; `follow` gives the place that a link at a place leads to. Where the way
comes back to itself the result is an error: the names from the root of a link that is met again,
and all that was still to be followed. -/
def resolveFrom (t : FileTree)
    (follow : List String → Path → Except (List String) (List String))
    (done : List String) : List String → Except (List String) (List String)
  | [] => .ok done
  | name :: rest =>
    if name = ".." then resolveFrom t follow done.dropLast rest
    else
      match t.root.get? (done ++ [name]) with
      | some (.link target) =>
        match follow (done ++ [name]) (Path.ofText target) with
        | .ok place => resolveFrom t follow place rest
        | .error names => .error (names ++ rest)
      | _ => resolveFrom t follow (done ++ [name]) rest

/-- The same where the links at the places `opened` are being followed, and at most `left` more may
be at one time. -/
def resolveWithin (t : FileTree) :
    Nat → List (List String) → List String → List String → Except (List String) (List String)
  | 0, _, done, todo => resolveFrom t (fun link _ => .error link) done todo
  | left + 1, opened, done, todo =>
    let follow (link : List String) (target : Path) : Except (List String) (List String) :=
      if link ∈ opened then .error link
      else
        resolveWithin t left (link :: opened) (if target.isAbsolute then [] else link.dropLast)
          target.segments
    resolveFrom t follow done todo

/-- The path from the root that a path stands for. It is free of links, unless the way comes back
to itself: then the names that are left are taken as they are. No more links can be followed at one
time than there are. -/
def resolve (t : FileTree) (p : Path) : Except FileError Path :=
  let names :=
    match resolveWithin t (t.root.count Node.isLink) [] (t.start p) p.segments with
    | .ok place => place
    | .error names => resolvePlainly [] names
  let resolved : Path := ⟨.root, names⟩
  if p.holdsNull then .error .nullInName
  else
    match t.locate resolved false with
    | .error .linkLoop => .error .linkLoop
    | _ => .ok resolved

/-- Whether a path leads to a directory. -/
def isDirectory (t : FileTree) (p : Path) : Bool :=
  match t.node p with
  | .ok node => node.isDirectory
  | .error _ => false

/-- The content of a file. -/
def read (t : FileTree) (p : Path) : Except FileError ByteArray :=
  match t.node p with
  | .ok (.file content _) => .ok content
  | .ok _ => .error .isDirectory
  | .error e => .error e

end FileTree

/-- How the content of the file at a path is had, or why it cannot be. -/
abbrev FileReader := Path → Except FileError ByteArray

instance : Coe FileTree FileReader := ⟨FileTree.read⟩

end LintGateway
