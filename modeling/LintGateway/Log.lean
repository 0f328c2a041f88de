/-!
# Log lines

What a run tells about itself. A line has a level, the part of the program that says it, and a text.
`Logged α` is a result together with the lines said on the way to it; putting two such results
together puts their lines one after the other.
-/

set_option autoImplicit false

namespace LintGateway

/-- How much a log line matters. -/
inductive LogLevel where
  | debug
  | info
  | warning
deriving DecidableEq, Repr

/-- The part of the program that says a line. -/
inductive LogChannel where
  | configuration
  | process
  | run
  | reconciliation
  | reportImport
deriving DecidableEq, Repr

/-- One line of the log. -/
structure LogLine where
  level : LogLevel
  channel : LogChannel
  text : String
deriving DecidableEq, Repr

/-- The name of a level. -/
def LogLevel.name : LogLevel → String
  | debug => "DEBUG"
  | info => "INFO"
  | warning => "WARNING"

/-- The name under which a part of the program logs. -/
def LogChannel.name : LogChannel → String
  | configuration => "stylebridge.config_builder"
  | process => "stylebridge.process"
  | run => "stylebridge.orchestrator"
  | reconciliation => "stylebridge.reconcile"
  | reportImport => "stylebridge.external"

/-- A result and the lines said on the way to it. -/
structure Logged (α : Type) where
  value : α
  lines : List LogLine

namespace Logged

variable {α β : Type}

/-- Says one line. -/
def say (line : LogLine) : Logged Unit := ⟨(), [line]⟩

/-- Goes on from a result; the lines of the first step come first. -/
def andThen (a : Logged α) (next : α → Logged β) : Logged β :=
  ⟨(next a.value).value, a.lines ++ (next a.value).lines⟩

instance : Monad Logged where
  pure a := ⟨a, []⟩
  bind := andThen

/-- A result that is simply given is its value. -/
@[simp] theorem value_pure (a : α) : (pure a : Logged α).value = a := rfl

/-- Giving a result says nothing. -/
@[simp] theorem lines_pure (a : α) : (pure a : Logged α).lines = [] := rfl

/-- In a row the next step goes on with the value of the first. -/
@[simp] theorem value_bind (a : Logged α) (next : α → Logged β) :
    (a >>= next).value = (next a.value).value := rfl

/-- In a row the lines of the first step come before those of the next. -/
@[simp] theorem lines_bind (a : Logged α) (next : α → Logged β) :
    (a >>= next).lines = a.lines ++ (next a.value).lines := rfl

/-- A function changes the value. -/
@[simp] theorem value_map (f : α → β) (a : Logged α) : (f <$> a).value = f a.value := rfl

/-- A function leaves the lines as they are. -/
@[simp] theorem lines_map (f : α → β) (a : Logged α) : (f <$> a).lines = a.lines :=
  List.append_nil a.lines

end Logged

end LintGateway
