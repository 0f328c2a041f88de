import LintGateway.FileTree.Basic
import LintGateway.Text.Split
import LintGateway.Text.Utf8

/-!
# The host

The machine on which the linter runs: its file tree, the programs in it that are no scripts, and the
variables of its own environment. Starting a file means to find out which program runs it: the file
is such a program itself, or a script whose first line names the file that runs it.
-/

set_option autoImplicit false

namespace LintGateway

/-- A program that is no script. -/
inductive Program where
  | shell
  | sleep
  | cat
deriving DecidableEq, Repr

/-- The machine on which the linter runs; its programs are given by the places of their files. -/
structure Host where
  tree : FileTree
  programs : List (List String × Program)
  environment : Members String

/-- Why a file cannot be started. -/
inductive StartError where
  | file (error : FileError)
  | badFormat
deriving DecidableEq, Repr

/-- The sentence of the operating system for a file that cannot be started. -/
def StartError.message : StartError → String
  | file e => e.message
  | badFormat => "Exec format error"

namespace FileTree

/-- The tree as seen from a directory. -/
def seenFrom (t : FileTree) (directory : List String) : FileTree := { t with here := directory }

/-- The place that the text of a path leads to for a program that runs in a directory. -/
def named (t : FileTree) (directory : List String) (text : String) :
    Except FileError (List String) :=
  (t.seenFrom directory).locate (Path.ofRawText text) false

/-- Whether a path leads to a file that may be started. -/
def isExecutable (t : FileTree) (p : Path) : Bool :=
  match t.node p with
  | .ok (.file _ mode) => mode &&& 0o111 ≠ 0
  | _ => false

end FileTree

namespace Host

/-- How many files in a row may name another file that runs them. -/
def maxInterpreters : Nat := 5

/-- How many bytes of the first line of a script are looked at. -/
def maxFirstLine : Nat := 256

/-- The name of the variable with the directories in which programs are looked up. -/
def searchVariable : String := "PATH"

/-- The file that runs a script, and the argument that it is given before the name of the script, by
the first line of the script. -/
def interpreter? (content : ByteArray) : Option (String × Option String) :=
  let isBlank (c : Char) : Bool := c = ' ' || c = '\t'
  let trim (cs : List Char) : List Char :=
    ((cs.dropWhile isBlank).reverse.dropWhile isBlank).reverse
  match (Text.decodeLossy (content.extract 0 maxFirstLine)).toList with
  | '#' :: '!' :: cs =>
    let line := trim (cs.takeWhile (· ≠ '\n'))
    let name := line.takeWhile fun c => !isBlank c
    let option := trim (line.drop name.length)
    if name.isEmpty then none
    else some (String.ofList name, if option.isEmpty then none else some (String.ofList option))
  | _ => none

/-- The program that runs a file, and its arguments, with at most `left` scripts in a row; relative
paths start at the directory `here`. -/
def startWithin (host : Host) (here : List String) :
    Nat → String → List String → Except StartError (Program × List String)
  | left, file, arguments =>
    match host.tree.named here file with
    | .error e => .error (.file e)
    | .ok place =>
      match host.tree.root.get? place with
      | some (.file content mode) =>
        if mode &&& 0o111 = 0 then .error (.file .denied)
        else
          match host.programs.lookup place with
          | some program => .ok (program, arguments)
          | none =>
            match interpreter? content, left with
            | none, _ => .error .badFormat
            | some _, 0 => .error (.file .linkLoop)
            | some (interpreter, option), left + 1 =>
              startWithin host here left interpreter (option.toList ++ file :: arguments)
      | _ => .error (.file .denied)

/-- The program that runs a file, and its arguments. -/
def start (host : Host) (here : List String) (file : String) (arguments : List String) :
    Except StartError (Program × List String) :=
  startWithin host here maxInterpreters file arguments

/-- The file of a name in a directory of a search list; an empty directory is the one that relative
paths start at. -/
def fileIn (directory name : String) : String :=
  if directory.isEmpty || directory.toList.getLast? = some '/' then directory ++ name
  else directory ++ "/" ++ name

/-- The first file of a name that may be started, in the directories of a search list. -/
def findProgram (tree : FileTree) (searchList name : String) : Option String :=
  if searchList.isEmpty || name ∈ ["", "."] then none
  else
    ((Text.split ':' searchList).map fun directory => fileIn directory name).find? fun file =>
      tree.isExecutable (Path.ofText file)

end Host

end LintGateway
