import LintGateway.Rule.Catalog
import LintGateway.Rule.Registry

/-!
# Activating rules

The host activates rules by key, with options and a severity. The catalog gives the identifier of
the linter and the options to use when none are given; an explicitly empty set of options counts as
given.

A rule may be activated again as long as the activations say the same. Options that are given are
compared pair by pair by what they hold, and an undefined float in them agrees with nothing but
itself. The options of the catalog are one and the same for all activations that take them, so they
are not compared with themselves.

What is said against an invalid activation writes all of it. An integer in it that has too many
digits cannot be written, and then this is the only thing that is told.
-/

set_option autoImplicit false

namespace LintGateway.Rule

open Schema

/-- A rule switched on by the host. -/
structure Activation where
  key : Key
  options : Option Options
  severity : Severity

/-- Why a list of activations gives no registry: the rule set is unusable, an entry of the catalog
makes no descriptor, or an invalid activation holds an integer with too many digits. -/
inductive ActivationError where
  | config (error : ConfigError)
  | invalidDescriptor (faults : List Fault)
  | longInteger

namespace Activation

/-- Turns a refused text into a fault of the value that held it. -/
def orRefused {α : Type} (v : Value) : Except Refusal α → Checked α
  | .ok a => .sound a
  | .error refusal => Checked.reject (.refused refusal.message) v

/-- A key, as a text or by its parts. -/
def readKey : Value → Checked Key
  | .text s => orRefused (.text s) (Key.parse s)
  | v => Key.read v

/-- A severity, by any of its labels. -/
def readSeverity : Value → Checked Severity
  | .text s => orRefused (.text s) (Severity.parse s)
  | v => Severity.read v

/-- An activation from its members. -/
def read : Value → Checked Activation :=
  readRecord .program "RuleActivation" fun t =>
    Activation.mk <$> required t ["key"] readKey
      <*> optional t "options" none Options.readGiven
      <*> optional t "severity" Severity.standard readSeverity

/-- A rule that has been activated: its descriptor, and whether the options of that are the standing
ones of the catalog. -/
structure Activated where
  descriptor : Descriptor
  standing : Bool

/-- Whether an activated rule says with standing options what another one of its identifier says
with them. -/
def Activated.repeats (a b : Activated) : Bool :=
  a.standing && b.standing && a.descriptor.severity = b.descriptor.severity

/-- The descriptor of an activated rule. -/
def describe (catalog : Catalog) (a : Activation) : Except ActivationError Activated :=
  match catalog.get? a.key with
  | none => .error (.config (.unknownKey a.key))
  | some entry =>
    let options := a.options.getD entry.defaults
    match Descriptor.make (.text entry.externalId) entry.key options.toValue a.severity with
    | .sound d => .ok { descriptor := d, standing := a.options.isNone }
    | .faulty first others => .error (.invalidDescriptor (first :: others))

/-- The descriptor of an activation given as data. -/
def describeValue (catalog : Catalog) (given : Value) : Except ActivationError Activated :=
  match read given with
  | .sound a => a.describe catalog
  | .faulty first others =>
    if given.isWritable then .error (.config (.invalidActivation given (first :: others)))
    else .error .longInteger

end Activation

namespace Registry

open Activation (Activated)

/-- The activated rule of an identifier that a list has first. -/
def findActivated (externalId : String) (as : List Activated) : Option Activated :=
  as.find? fun a => a.descriptor.externalId = externalId

/-- The descriptors of activated rules without those that say again, with standing options, what was
last said of their identifier; `before` holds what has been gone through, the last one first. -/
def newlySaid (before : List Activated) : List Activated → List Descriptor
  | [] => []
  | a :: as =>
    let said := findActivated a.descriptor.externalId before
    if said.any fun b => b.repeats a then newlySaid (a :: before) as
    else a.descriptor :: newlySaid (a :: before) as

/-- The registry of a list of activated rules. -/
def ofActivated (as : List Activated) : Except ConfigError Registry :=
  ofDescriptors (newlySaid [] as)

/-- The registry of activated rules that may themselves have failed, the first failure winning. -/
def collect (as : List (Except ActivationError Activated)) : Except ActivationError Registry :=
  match as.mapM id with
  | .error e => .error e
  | .ok as => (ofActivated as).mapError .config

/-- The registry of a list of activations. -/
def ofActivations (catalog : Catalog) (activations : List Activation) :
    Except ActivationError Registry :=
  collect (activations.map (Activation.describe catalog))

/-- The registry of a list of activations given as data. -/
def ofActivationValues (catalog : Catalog) (given : List Value) : Except ActivationError Registry :=
  collect (given.map (Activation.describeValue catalog))

end Registry

end LintGateway.Rule
