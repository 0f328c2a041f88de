import LintGateway.FileTree.Change
import LintGateway.Json.Writer
import LintGateway.Log
import LintGateway.Rule.Registry

/-!
# The configuration of the linter

What the linter is told before it runs: for each of its rules whether it is on, with which options
and how serious it is. The configuration is written as a JSON document whose form depends on the
rules alone and not on the order in which they came.
-/

set_option autoImplicit false

namespace LintGateway

open Schema

/-- What the linter is told about one rule. -/
structure RuleSettings where
  enabled : Bool := true
  options : Rule.Options := []
  severity : Severity := .standard

/-- What the linter is told about all rules, by its own identifiers. -/
structure LinterConfig where
  rules : Members RuleSettings

namespace RuleSettings

/-- The name of the option that carries a severity other than the standard one. -/
def severityOption : String := "severity"

/-- The settings of a rule from their members. -/
def read : Value → Checked RuleSettings :=
  readRecord .program "RuleSettings" fun t =>
    RuleSettings.mk <$> optional t "enabled" true readBool
      <*> optional t "options" [] Rule.Options.read
      <*> optional t "severity" Severity.standard Severity.read

/-- The options of a rule together with its severity, unless that is the standard one. -/
def secondary (s : RuleSettings) : Value.Table :=
  let options := Rule.Options.toTable s.options
  if s.severity = .standard then options
  else options.put severityOption (.text s.severity.name)

/-- The entry of a rule in the document: nothing for a rule that is off, otherwise that it is on,
followed by its options if it has any. -/
def toValue (s : RuleSettings) : Value :=
  if !s.enabled then .null
  else if s.secondary.isEmpty then .bool true
  else .list [.bool true, .record s.secondary]

/-- The settings of an active rule. -/
def ofDescriptor (d : Rule.Descriptor) : RuleSettings :=
  { enabled := true, options := d.options, severity := d.severity }

end RuleSettings

namespace LinterConfig

/-- The members of a table of rules. -/
def readRules : Value → Checked (Members RuleSettings)
  | .record t => Checked.eachMember RuleSettings.read t
  | v => Checked.reject .notDictionary v

/-- A configuration from its members. -/
def read : Value → Checked LinterConfig :=
  readRecord .program "LinterConfig" fun t => LinterConfig.mk <$> optional t "rules" [] readRules

/-- The configuration with exactly the rules of a list, in the order of their identifiers; of two
with one identifier the later one counts. -/
def ofDescriptors (ds : List Rule.Descriptor) : LinterConfig :=
  let sorted := ds.mergeSort fun a b => a.externalId ≤ b.externalId
  { rules := Members.ofList (sorted.map fun d => (d.externalId, RuleSettings.ofDescriptor d)) }

/-- The configuration for the rules of a run. -/
def ofRegistry (registry : Rule.Registry) : LinterConfig := ofDescriptors registry.activeRules

/-- How many rules the configuration names. -/
def size (config : LinterConfig) : Nat := config.rules.length

/-- Whether the configuration names a rule. -/
def contains (config : LinterConfig) (externalId : String) : Bool := config.rules.has externalId

/-- The entries of the rules in the document. -/
def entries (config : LinterConfig) : Value.Table := config.rules.map fun r => (r.1, r.2.toValue)

/-- The configuration as a document. -/
def toDocument (config : LinterConfig) : Value := .record [("rules", .record config.entries)]

/-- The bytes of the document, on one line of its own, or what in it has no form in JSON. -/
def serialize (config : LinterConfig) : Except Json.Obstacle ByteArray :=
  (Json.write config.toDocument).map fun cs => (String.ofList (cs ++ ['\n'])).toUTF8

/-- The bytes of the document, if it has a form. -/
def serialize? (config : LinterConfig) : Option ByteArray := config.serialize.toOption

/-- The bytes of the document are what writing it gives. -/
theorem serialize?_eq_some_iff {config : LinterConfig} {content : ByteArray} :
    config.serialize? = some content ↔ config.serialize = .ok content := by
  unfold serialize?
  cases config.serialize <;> simp [Except.toOption]

/-- The bytes of a configuration are those of the text of its document, on a line of its own. -/
theorem serialize?_eq_map (config : LinterConfig) :
    config.serialize? = (Json.write? config.toDocument).map fun cs =>
      (String.ofList (cs ++ ['\n'])).toUTF8 := by
  unfold serialize? serialize Json.write?
  cases Json.write config.toDocument <;> rfl

/-- Why a configuration is not written: something in an option has no form in JSON, or the file
cannot be made. -/
inductive WriteError where
  | unwritable (obstacle : Json.Obstacle)
  | file (error : FileError)
deriving DecidableEq, Repr

/-- Puts content into a file, after making the directories above it. Directories that were made stay
when the file itself cannot be written. -/
def store (disk : Disk) (tree : FileTree) (p : Path) (content : ByteArray) :
    FileTree × Except FileError Unit :=
  match disk.makeDirectories tree p.parent with
  | (tree, .error e) => (tree, .error e)
  | (tree, .ok ()) => disk.write tree p content

/-- The line that tells where a configuration went. -/
def writtenLine (config : LinterConfig) (p : Path) : LogLine :=
  { level := .debug
    channel := .configuration
    text := "wrote stylelint config with " ++ toString config.size ++ " rule(s) to " ++ p.toText }

/-- Writes the document to a file. -/
def write (config : LinterConfig) (disk : Disk) (tree : FileTree) (p : Path) :
    Logged (FileTree × Except WriteError Unit) :=
  match config.serialize with
  | .error obstacle => pure (tree, .error (.unwritable obstacle))
  | .ok content =>
    match store disk tree p content with
    | (tree, .error e) => pure (tree, .error (.file e))
    | (tree, .ok ()) => do
      Logged.say (config.writtenLine p)
      return (tree, .ok ())

end LinterConfig

end LintGateway
