import LintGateway.Toml.Error
import LintGateway.Value.Basic

/-!
# Tables under construction

The table of a document grows statement by statement. A table comes into being when a header or a
dotted key opens it, or merely because it is on the way to another one. What a value closes is never
changed again, a table is opened by a header at most once, and dotted keys go through a table only
in the section that opened it.
-/

set_option autoImplicit false

namespace LintGateway.Toml

/-- A member of a table under construction: a finished value, a table with the section that opened
it, or an array of tables of which only the last one can still grow. -/
inductive Part where
  | value (v : Value)
  | table (opened : Option Nat) (body : List (String × Part))
  | tables (finished : List Value) (current : List (String × Part))

/-- The members of a table under construction. -/
abbrev Body := Members Part

mutual

/-- The value that a part has become. -/
def Part.toValue : Part → Value
  | .value v => v
  | .table _ body => .record (bodyTable body)
  | .tables finished current => .list (finished ++ [.record (bodyTable current)])

/-- The table that a body has become. -/
def bodyTable : List (String × Part) → Value.Table
  | [] => []
  | (name, part) :: body => (name, part.toValue) :: bodyTable body

end

namespace Body

/-- Changes the table that a header leads to; tables on the way that are not there come into being,
and of an array of tables the last one is taken. -/
def within (change : Body → Except Error Body) : List String → Body → Except Error Body
  | [], body => change body
  | name :: path, body =>
    match Members.get? body name with
    | none =>
      (within change path []).map fun inner => Members.put body name (.table none inner)
    | some (.table opened inner) =>
      (within change path inner).map fun inner => Members.put body name (.table opened inner)
    | some (.tables finished current) =>
      (within change path current).map fun current =>
        Members.put body name (.tables finished current)
    | some (.value _) => .error .malformed

/-- Opens the table of a name in a section. -/
def openTable (sectionNo : Nat) (name : String) (body : Body) : Except Error Body :=
  match Members.get? body name with
  | none => .ok (Members.put body name (.table (some sectionNo) []))
  | some (.table none inner) => .ok (Members.put body name (.table (some sectionNo) inner))
  | _ => .error .malformed

/-- Adds a table to the array of tables of a name. -/
def addTable (name : String) (body : Body) : Except Error Body :=
  match Members.get? body name with
  | none => .ok (Members.put body name (.tables [] []))
  | some (.tables finished current) =>
    .ok (Members.put body name (.tables (finished ++ [.record (bodyTable current)]) []))
  | _ => .error .malformed

/-- Sets the value of a dotted key in a section. -/
def assign (sectionNo : Nat) (v : Value) : List String → Body → Except Error Body
  | [], body => .ok body
  | [name], body =>
    if Members.has body name then .error .malformed
    else .ok (Members.put body name (.value v))
  | name :: path, body =>
    let inside (inner : Body) : Except Error Body :=
      (assign sectionNo v path inner).map fun inner =>
        Members.put body name (.table (some sectionNo) inner)
    match Members.get? body name with
    | none => inside []
    | some (.table none inner) => inside inner
    | some (.table (some opened) inner) =>
      if opened = sectionNo then inside inner else .error .malformed
    | _ => .error .malformed

end Body

end LintGateway.Toml
