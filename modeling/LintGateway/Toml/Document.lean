import LintGateway.Toml.Statement

/-!
# TOML documents

The table of a document is what its statements make of the empty table one after the other. The
first statement that cannot be read or carried out makes the document unreadable.
-/

set_option autoImplicit false

namespace LintGateway.Toml

/-- A document as far as it has been carried out: its table, the header in force and how many
headers came before. -/
structure Progress where
  body : Body
  header : List String
  sections : Nat

namespace Progress

/-- Where a document starts. -/
def start : Progress := { body := [], header := [], sections := 0 }

/-- Carries out a header: goes to the table above the one it names and changes that. -/
def enter (p : Progress) (key : List String)
    (change : Nat → String → Body → Except Error Body) : Except Error Progress :=
  let sections := p.sections + 1
  let name := key.getLast?.getD ""
  (Body.within (change sections name) key.dropLast p.body).map fun body =>
    { body := body, header := key, sections := sections }

/-- Carries out a statement. -/
def step (p : Progress) : Statement → Except Error Progress
  | .assign key v =>
    (Body.within (Body.assign p.sections v key) p.header p.body).map fun body =>
      { p with body := body }
  | .table key => p.enter key Body.openTable
  | .tables key => p.enter key fun _ => Body.addTable

end Progress

/-- The table of a document. -/
def read (s : String) : Except Error Value.Table :=
  let (statements, ending) := statements s
  match statements.foldlM Progress.step Progress.start, ending with
  | .error e, _ => .error e
  | .ok _, some e => .error e
  | .ok p, none => .ok (bodyTable p.body)

end LintGateway.Toml
