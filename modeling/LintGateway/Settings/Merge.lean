import LintGateway.Value.Basic

/-!
# Merging settings tables

Settings come in layers. A later layer wins member by member: where both layers have a table the two
tables are merged in the same way, anywhere else the value of the later layer stands. Members keep
the place where they first appeared.
-/

set_option autoImplicit false

namespace LintGateway.Settings

mutual

/-- What a member becomes when a later layer gives it a value. -/
def mergeValue (current : Option Value) : Value → Value
  | .record later =>
    match current with
    | some (.record earlier) => .record (merge earlier later)
    | _ => .record later
  | v => v

/-- An earlier layer with the members of a later one put over it. -/
def merge (earlier : Value.Table) : List (String × Value) → Value.Table
  | [] => earlier
  | (name, v) :: later =>
    merge (Members.put earlier name (mergeValue (Members.get? earlier name) v)) later

end

/-- Tables merged in order, the last one winning. -/
def mergeAll (layers : List Value.Table) : Value.Table := layers.foldl merge []

end LintGateway.Settings
