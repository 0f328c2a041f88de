import LintGateway.FileTree.Basic

/-!
# Changing a file tree

Writing a file and making directories. A function that changes one place gives the changed tree, or
the reason why nothing changed. Making a directory with those above it changes several places, so it
gives the tree in any case. `Disk` is what a program knows of all this: it asks for a change, and
the tree afterwards may be any.
-/

set_option autoImplicit false

namespace LintGateway

namespace FileTree

/-- The mode of a file that is new. -/
def newFileMode : Nat := 0o644

/-- The tree with a node at a place. -/
def place (t : FileTree) (names : List String) (node : Node) : FileTree :=
  { t with root := node.set names t.root }

/-- Where a new entry at a path goes: into the directory that its parent leads to. -/
def newPlace (t : FileTree) (p : Path) : Except FileError (List String) :=
  match t.locate p.parent false with
  | .error e => .error e
  | .ok place =>
    match t.root.get? place with
    | some (.directory _) => .ok (place ++ [p.name])
    | _ => .error .notDirectory

/-- Writes a file, in the place of the one that is there. A link that leads nowhere gives the name
of the file to make. -/
def writeWithin (content : ByteArray) (t : FileTree) : Nat → Path → Except FileError FileTree
  | 0, _ => .error .linkLoop
  | links + 1, p =>
    match t.node p with
    | .ok (.file _ mode) => (t.locate p false).map fun place => t.place place (.file content mode)
    | .ok _ => .error .isDirectory
    | .error .missing =>
      match t.newPlace p with
      | .error e => .error e
      | .ok place =>
        match t.root.get? place with
        | some (.link target) =>
          writeWithin content t links (Path.join ⟨.root, place.dropLast⟩ (Path.ofRawText target))
        | _ => .ok (t.place place (.file content newFileMode))
    | .error e => .error e

/-- Writes a file, in the place of the one that is there. -/
def write (t : FileTree) (p : Path) (content : ByteArray) : Except FileError FileTree :=
  writeWithin content t (maxLinks + 1) p

/-- Makes one directory in a directory that is there. -/
def makeDirectory (t : FileTree) (p : Path) : Except FileError FileTree :=
  match t.locate p true with
  | .ok _ => .error .alreadyThere
  | .error .missing => (t.newPlace p).map fun place => t.place place .emptyDirectory
  | .error e => .error e

/-- Makes a directory and those above it that are missing, the path having `left` segments at most.
A directory that is there already is fine, and one that was made stays when one below it cannot be
made. -/
def makeDirectoriesWithin : Nat → FileTree → Path → FileTree × Except FileError Unit
  | left, t, p =>
    match t.makeDirectory p with
    | .ok t => (t, .ok ())
    | .error .missing =>
      match left with
      | 0 => (t, .error .missing)
      | left + 1 =>
        match makeDirectoriesWithin left t p.parent with
        | (t, .error e) => (t, .error e)
        | (t, .ok ()) =>
          match t.makeDirectory p with
          | .ok t => (t, .ok ())
          | .error e =>
            if e ≠ .missing && t.isDirectory p then (t, .ok ()) else (t, .error e)
    | .error e => if t.isDirectory p then (t, .ok ()) else (t, .error e)

/-- Makes a directory and those above it that are missing. -/
def makeDirectories (t : FileTree) (p : Path) : FileTree × Except FileError Unit :=
  makeDirectoriesWithin p.segments.length t p

end FileTree

/-- How files are changed: a directory is made with those above it, and a file is written. Either
may fail, and the files are then whatever it left. -/
structure Disk where
  makeDirectories : FileTree → Path → FileTree × Except FileError Unit
  write : FileTree → Path → ByteArray → FileTree × Except FileError Unit

/-- The disk on which a change fails only for a reason that the tree itself gives. -/
def Disk.reliable : Disk where
  makeDirectories := FileTree.makeDirectories
  write t p content :=
    match t.write p content with
    | .ok t => (t, .ok ())
    | .error e => (t, .error e)

end LintGateway
