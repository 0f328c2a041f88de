import LintGateway.Rule.Key
import LintGateway.Path

/-!
# Configuration errors

What makes a rule set or the settings of a project unusable. `message` says it in a sentence;
`faults` lists the members at fault when the sentence is about a record.
-/

set_option autoImplicit false

namespace LintGateway

/-- Why a rule set or the settings of a project cannot be used. -/
inductive ConfigError where
  | duplicateKey (key : Rule.Key)
  | duplicateExternalId (externalId : String)
  | invalidActivation (given : Value) (faults : List Schema.Fault)
  | unknownKey (key : Rule.Key)
  | boundTwice (externalId : String) (first second : Rule.Key)
  | invalidToml (document : Path)
  | circularInclude (chain : List Path)
  | unsupportedInclude (declaration : Value)
  | invalidSettings (faults : List Schema.Fault)

namespace ConfigError

/-- The sentence that names the cause. -/
def message : ConfigError → String
  | duplicateKey key => "duplicate rule key in catalog: " ++ key.toText
  | duplicateExternalId externalId => "duplicate external rule id in catalog: " ++ externalId
  | invalidActivation given _ => "invalid rule activation " ++ given.describe
  | unknownKey key => "rule " ++ key.toText ++ " is not part of the rule catalog"
  | boundTwice externalId first second =>
    "external rule id '" ++ externalId ++ "' is bound to both " ++ first.toText ++ " and " ++
      second.toText
  | invalidToml document => "Invalid TOML in " ++ document.toText
  | circularInclude chain =>
    "Circular include detected: " ++ " -> ".intercalate (chain.map Path.toText)
  | unsupportedInclude declaration => "Unsupported include declaration: " ++ declaration.describe
  | invalidSettings _ => "Invalid stylebridge settings"

/-- The members at fault, when the error is about a record. -/
def faults : ConfigError → Option (List Schema.Fault)
  | invalidActivation _ faults => some faults
  | invalidSettings faults => some faults
  | _ => none

end ConfigError

end LintGateway
