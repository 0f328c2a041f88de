import LintGateway.ConfigError
import LintGateway.FileTree.Basic
import LintGateway.Settings.Merge
import LintGateway.Text.Utf8
import LintGateway.Toml.Document

/-!
# Settings documents

A settings document is TOML and may include further documents, which are merged first and in the
order given, so that the document itself wins. Documents are told apart by where their files really
are; a document that leads back to itself is an error, one that is reached twice is not. A document
that is not there says nothing.
-/

set_option autoImplicit false

namespace LintGateway.Settings

/-- Why the documents of a project cannot be loaded. -/
inductive LoadError where
  | config (error : ConfigError)
  | notUtf8
  | longInteger (digits : Option Nat)
  | tooDeep
  | includeNotText
  | file (error : FileError)

/-- Where the settings stand in the first document of a source. -/
inductive Scope where
  | whole
  | tool

/-- A place that settings are loaded from. -/
structure Source where
  document : Path
  scope : Scope
  includeName : String := "include"

namespace Source

/-- The table of a member, empty when there is none. -/
def memberTable (name : String) (t : Value.Table) : Value.Table :=
  match Members.get? t name with
  | some (.record inner) => inner
  | _ => []

/-- The settings in the first document of a source. -/
def select : Scope → Value.Table → Value.Table
  | .whole, t => t
  | .tool, t => memberTable "stylebridge" (memberTable "tool" t)

/-- The documents that a declaration includes, relative ones starting at `base`. -/
def includes (base : Path) : Option Value → Except LoadError (List Path)
  | none => .ok []
  | some (.text s) => .ok [base.join (Path.ofText s)]
  | some (.list vs) =>
    vs.mapM fun
      | .text s => .ok (base.join (Path.ofText s))
      | _ => .error .includeNotText
  | some v =>
    if v.isWritable then .error (.config (.unsupportedInclude v)) else .error (.longInteger none)

/-- The table of the document that is named `document` and has the given content. -/
def parse (document : Path) (content : ByteArray) : Except LoadError Value.Table :=
  match Text.decode content with
  | .error _ => .error .notUtf8
  | .ok s =>
    match Toml.read s with
    | .ok t => .ok t
    | .error .malformed => .error (.config (.invalidToml document))
    | .error (.longInteger digits) => .error (.longInteger (some digits))
    | .error .tooDeep => .error .tooDeep

/-- The real place of a document and what is there; nothing when the path leads nowhere. -/
def find (tree : FileTree) (document : Path) : Except LoadError (Option (Path × Node)) :=
  match tree.locate document false with
  | .error .nameTooLong => .error (.file .nameTooLong)
  | .error _ => .ok none
  | .ok place => .ok ((tree.root.get? place).map fun node => (⟨.root, place⟩, node))

/-- The merged table of a document and all it includes, with at most `left` more documents on the
way; `loading` are the places of those that are being loaded. -/
def loadFrom (tree : FileTree) (source : Source) :
    Nat → List Path → Path → Except LoadError Value.Table
  | 0, loading, _ => .error (.config (.circularInclude loading))
  | left + 1, loading, document =>
    match find tree document with
    | .error e => .error e
    | .ok none => .ok []
    | .ok (some (place, node)) => do
      if place ∈ loading then .error (.config (.circularInclude (loading ++ [place])))
      match node with
      | .file content _ =>
        let whole ← parse document content
        let own := if loading.isEmpty then select source.scope whole else whole
        let targets ← includes place.parent (Members.get? own source.includeName)
        let included ← targets.mapM (loadFrom tree source left (loading ++ [place]))
        return merge (mergeAll included) (Members.erase own source.includeName)
      | _ => .error (.file .isDirectory)

/-- The merged table of a source. On the way to a document there are no more others than files. -/
def load (tree : FileTree) (source : Source) : Except LoadError Value.Table :=
  loadFrom tree source (tree.root.count Node.isFile + 2) [] source.document

end Source

end LintGateway.Settings
