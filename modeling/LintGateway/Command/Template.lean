import LintGateway.Schema.Record
import LintGateway.Text.Split

/-!
# Command templates

The host says how the linter is called: its arguments, and where it expects its configuration. Both
may name the directory in which the linter runs by a placeholder.
-/

set_option autoImplicit false

namespace LintGateway

open Schema

/-- How the linter is called and where its configuration goes. -/
structure CommandTemplate where
  arguments : List String
  configPath : String
deriving DecidableEq, Repr

namespace CommandTemplate

/-- The text that stands for the directory in which the linter runs. -/
def placeholder : String := "\x7bdeploy_dir\x7d"

/-- How many items of a list are texts. -/
def countTexts (vs : List Value) : Nat :=
  vs.countP fun
    | .text _ => true
    | _ => false

/-- At least one argument; items that are no texts are faults of their own and do not count. -/
def readArguments (v : Value) : Checked (List String) :=
  let ofItems (vs : List Value) : Checked (List String) :=
    let enough : Checked Unit :=
      if countTexts vs = 0 then Checked.reject (.tooShort 1 0) v else .sound ()
    (fun texts _ => texts) <$> Checked.each readText vs <*> enough
  match v with
  | .list vs => ofItems vs
  | .tuple vs => ofItems vs
  | _ => Checked.reject (.notSequence .program) v

/-- A template from its members. -/
def read : Value → Checked CommandTemplate :=
  readRecord .program "CommandTemplate" fun t =>
    CommandTemplate.mk <$> required t ["arguments"] readArguments
      <*> required t ["config_path"] readNonemptyText

/-- A text with the directory in the place of each placeholder. -/
def fill (text : String) (directory : Path) : String :=
  Text.replace placeholder directory.toText text

/-- The arguments for a run in a directory. -/
def argumentsIn (template : CommandTemplate) (directory : Path) : List String :=
  template.arguments.map fun argument => fill argument directory

/-- The path of the configuration for a run in a directory. -/
def configPathIn (template : CommandTemplate) (directory : Path) : Path :=
  Path.ofText (fill template.configPath directory)

end CommandTemplate

end LintGateway
