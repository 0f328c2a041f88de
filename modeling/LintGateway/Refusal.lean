import LintGateway.Value.Text

/-!
# Refused texts and arguments

The reasons for which a single text or argument is turned down on its own, before any record or
document is involved.
-/

set_option autoImplicit false

namespace LintGateway

/-- Why a text or an argument is turned down. -/
inductive Refusal where
  | unknownSeverity (label : String)
  | malformedKey (text : String)
  | malformedOption (entry : Value)
  | longInteger
  | relativeInput (path : String)
  | noSuchChoice (given : Value) (kind : String)
  | negativeTimeout
  | undefinedTimeout
  | variableName
  | nullCharacter

namespace Refusal

/-- The sentence that says why. -/
def message : Refusal → String
  | unknownSeverity label => "unknown severity " ++ Text.quoted label
  | malformedKey text => "rule key must look like 'repository:rule', got " ++ Text.quoted text
  | malformedOption entry => "rule option must be a (key, value) pair, got " ++ entry.describe
  | longInteger => Decimal.tooManyDigits none
  | relativeInput path => "input file path must be absolute, got " ++ path
  | noSuchChoice given kind => given.describe ++ " is not a valid " ++ kind
  | negativeTimeout => "timeout must be non-negative"
  | undefinedTimeout => "cannot convert float NaN to integer"
  | variableName => "illegal environment variable name"
  | nullCharacter => "embedded null byte"

end Refusal

end LintGateway
