import LintGateway.FileTree.Listing
import LintGateway.Tracked.InputFile
import LintGateway.Tracked.Suffix

/-!
# The index of tracked files

Reports name files by absolute path, and the index finds the tracked file of that path. Paths are
compared as paths: what differs only in empty segments and `.` segments is the same file, while `..`
and links are taken as they are written.
-/

set_option autoImplicit false

namespace LintGateway

open Schema

/-- Tracked files in the order of registration, no two of the same path. -/
structure FileIndex where
  files : List InputFile
  paths_nodup : (files.map InputFile.path).Nodup

/-- Why a list of paths gives no index. -/
inductive RegistrationError where
  | notText
  | invalid (faults : List Fault)

namespace FileIndex

/-- The index without files. -/
def empty : FileIndex := ⟨[], by simp⟩

/-- The file of a path. -/
def find? (index : FileIndex) (p : Path) : Option InputFile :=
  index.files.find? fun f => f.path = p

/-- The file that a path text denotes. -/
def get? (index : FileIndex) (text : String) : Option InputFile := index.find? (Path.ofText text)

/-- Whether there is a file of a path. -/
def has (index : FileIndex) (p : Path) : Bool := index.files.any fun f => f.path = p

/-- Whether data names a tracked file: a text of its path does, and anything else names none. -/
def contains (index : FileIndex) : Value → Bool
  | .text s => index.has (Path.ofText s)
  | _ => false

/-- How many files are tracked. -/
def size (index : FileIndex) : Nat := index.files.length

/-- The files with `f` in the place of the one of its path, at the end if there is none. -/
def set (f : InputFile) : List InputFile → List InputFile
  | [] => [f]
  | g :: gs => if g.path = f.path then f :: gs else g :: set f gs

/-- Setting a file adds its path at the end, unless it is there already. -/
theorem paths_set (f : InputFile) (gs : List InputFile) :
    (set f gs).map InputFile.path =
      if f.path ∈ gs.map InputFile.path then gs.map InputFile.path
      else gs.map InputFile.path ++ [f.path] := by
  induction gs with
  | nil => simp [set]
  | cons g gs ih =>
    by_cases hg : g.path = f.path
    · simp [set, hg]
    · by_cases hf : f.path ∈ gs.map InputFile.path <;>
        simp_all [set, Ne.symm hg]

/-- Setting a file leaves every path there once. -/
theorem nodup_set (f : InputFile) {gs : List InputFile} (h : (gs.map InputFile.path).Nodup) :
    ((set f gs).map InputFile.path).Nodup := by
  rw [paths_set]
  split
  · exact h
  · rename_i hf
    rw [List.nodup_append]
    refine ⟨h, by simp, ?_⟩
    intro p hp q hq
    simp only [List.mem_singleton] at hq
    rintro rfl
    exact hf (hq ▸ hp)

/-- Registers a file, in the place of the one of its path. -/
def register (index : FileIndex) (f : InputFile) : FileIndex :=
  ⟨set f index.files, nodup_set f index.paths_nodup⟩

/-- The tracked file of a path, with the language that its suffix tells. -/
def fileOfPath (p : Path) : Checked InputFile :=
  let language := InputFile.languages.lookup (Text.lower p.suffix)
  Checked.under (.member "path")
    (if h : p.isAbsolute = true then .sound ⟨p, language, h⟩
      else Checked.reject (.refused (Refusal.relativeInput p.toText).message) (.text p.toText))

/-- The index of a list of paths; the first one that is relative is at fault. -/
def ofPaths (paths : List Path) : Except (List Fault) FileIndex :=
  paths.foldlM (fun index p => (fileOfPath p).toExcept.map index.register) empty

/-- The index of a list of paths given as data, each of which has to be a text. -/
def ofValues (values : List Value) : Except RegistrationError FileIndex :=
  let add (index : FileIndex) : Value → Except RegistrationError FileIndex
    | .text s => ((fileOfPath (Path.ofText s)).toExcept.map index.register).mapError .invalid
    | _ => .error .notText
  values.foldlM add empty

/-- Whether a search for files goes into a directory of a name: not when the name starts with a dot,
and not when it is one of those for installed or generated files. -/
def enters (name : String) : Bool :=
  name.toList.head? ≠ some '.' && name ∉ ["node_modules", "__pycache__"]

/-- Why a search for files gives no index. -/
inductive SearchError where
  | file (error : FileError)
  | invalid (faults : List Fault)

/-- The index of the files below a directory whose suffix is among those given. -/
def search (t : FileTree) (directory : Path) (suffixes : List String) :
    Except SearchError FileIndex :=
  let accepted := Suffix.normalize suffixes
  match t.listing enters directory with
  | .error e => .error (.file e)
  | .ok paths =>
    (ofPaths (paths.filter fun p => Text.lower p.suffix ∈ accepted)).mapError .invalid

end FileIndex

end LintGateway
