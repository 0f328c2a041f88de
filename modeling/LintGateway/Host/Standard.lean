import LintGateway.FileTree.Change
import LintGateway.Host.Basic

/-!
# A standard host

A host with the shell and the other programs in the two usual directories, and with an environment
that leads to them.
-/

set_option autoImplicit false

namespace LintGateway.Host

/-- The programs by the names of their files. -/
def standardPrograms : List (String × Program) :=
  [("sh", .shell), ("sleep", .sleep), ("cat", .cat)]

/-- The directories that hold programs. -/
def programDirectories : List (List String) := [["bin"], ["usr", "bin"]]

/-- The places of the programs. -/
def programPlaces : List (List String × Program) :=
  programDirectories.flatMap fun directory =>
    standardPrograms.map fun p => (directory ++ [p.1], p.2)

/-- The mode of the file of a program. -/
def programMode : Nat := 0o755

/-- The environment of the host. -/
def standardEnvironment : Members String :=
  [(searchVariable, "/usr/local/bin:/usr/bin:/bin"), ("HOME", "/root")]

/-- The host of a file tree, with the programs added to it. -/
def ofTree (tree : FileTree) : Host :=
  { tree := programPlaces.foldl (fun t p => t.place p.1 (.file .empty programMode)) tree
    programs := programPlaces
    environment := standardEnvironment }

end LintGateway.Host
