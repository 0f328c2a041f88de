import LintGateway.Rule.Key
import LintGateway.Rule.Options
import LintGateway.Severity

/-!
# Active rules

A descriptor is a rule as the linter is told about it: the linter's identifier, the host's key, the
options and the severity. Two descriptors of one identifier may both be given as long as they agree.
-/

set_option autoImplicit false

namespace LintGateway.Rule

open Schema

/-- A rule that is active in a run. -/
structure Descriptor where
  externalId : String
  key : Key
  options : Options
  severity : Severity

namespace Descriptor

/-- Whether two descriptors say the same. -/
def agrees (a b : Descriptor) : Bool :=
  a.externalId = b.externalId && a.key = b.key && a.options.agrees b.options &&
    a.severity = b.severity

/-- Descriptors that say the same have the same identifier. -/
theorem externalId_eq_of_agrees {a b : Descriptor} (h : a.agrees b = true) :
    a.externalId = b.externalId := by
  simp only [agrees, Bool.and_eq_true, decide_eq_true_eq] at h
  exact h.1.1.1

/-- Descriptors that say the same have the same key. -/
theorem key_eq_of_agrees {a b : Descriptor} (h : a.agrees b = true) : a.key = b.key := by
  simp only [agrees, Bool.and_eq_true, decide_eq_true_eq] at h
  exact h.1.1.2

/-- A descriptor of a known key from an identifier and options in any of their forms. -/
def make (externalId : Value) (key : Key) (options : Value) (severity : Severity) :
    Checked Descriptor :=
  (fun externalId options => ⟨externalId, key, options, severity⟩)
    <$> Checked.under (.member "external_id") (readNonemptyText externalId)
    <*> Checked.under (.member "options") (Options.readFrozen options)

/-- A descriptor from its members. -/
def read : Value → Checked Descriptor :=
  readRecord .program "RuleDescriptor" fun t =>
    Descriptor.mk <$> required t ["external_id"] readNonemptyText
      <*> required t ["internal_key"] Key.read
      <*> optional t "options" [] Options.readFrozen
      <*> optional t "severity" Severity.standard Severity.read

end Descriptor

end LintGateway.Rule
