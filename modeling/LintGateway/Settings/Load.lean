import LintGateway.Settings.Basic
import LintGateway.Settings.Source

/-!
# Loading settings

The settings of a project are merged from its two documents and from what the caller gives, each
layer winning over those before it, and are then read as a whole. Relative report paths start at the
root of the project.
-/

set_option autoImplicit false

namespace LintGateway.Settings

/-- The sources of the project at a root, in the order of their layers. -/
def sources (root : Path) : List Source :=
  [{ document := root.child "pyproject.toml", scope := .tool },
    { document := root.child ".stylebridge.toml", scope := .whole }]

/-- The merged table of the documents of a project and what the caller gives. -/
def table (tree : FileTree) (root : Path) (overrides : Value.Table) :
    Except LoadError Value.Table :=
  ((sources root).mapM (Source.load tree)).map fun layers => mergeAll (layers ++ [overrides])

/-- Settings whose relative report paths start at a root. -/
def anchor (root : Path) (s : Settings) : Settings :=
  { s with reportPaths := s.reportPaths.map root.join }

/-- The settings of the project at a root. -/
def load (tree : FileTree) (root : Path) (overrides : Value.Table) : Except LoadError Settings :=
  match table tree root overrides with
  | .error e => .error e
  | .ok merged =>
    match readTable merged with
    | .sound s => .ok (s.anchor root)
    | .faulty first others => .error (.config (.invalidSettings (first :: others)))

end LintGateway.Settings
