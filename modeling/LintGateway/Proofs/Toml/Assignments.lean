import LintGateway.Toml.Document

/-!
# Documents of assignments

A document without headers whose keys have one part each and are all different says what its
assignments say, in their order: no step finds a member that is already there.
-/

set_option autoImplicit false

namespace LintGateway.Toml

/-- A body of values only is the table of these values. -/
theorem bodyTable_map_value (t : Value.Table) :
    bodyTable (t.map fun m => (m.1, Part.value m.2)) = t := by
  induction t with
  | nil => rfl
  | cons m t ih => rw [List.map_cons, bodyTable, ih, Part.toValue]

/-- Assigning a new name to a body of values adds the value at its end. -/
theorem step_assign {before : Value.Table} {name : String} (v : Value)
    (hnew : name ∉ Members.names before) :
    Progress.step ⟨before.map fun m => (m.1, Part.value m.2), [], 0⟩ (.assign [name] v) =
      .ok ⟨(before ++ [(name, v)]).map fun m => (m.1, Part.value m.2), [], 0⟩ := by
  have hparts : name ∉ Members.names (before.map fun m => (m.1, Part.value m.2)) := by
    unfold Members.names at hnew ⊢
    rwa [List.map_map]
  have hhas : Members.has (before.map fun m => (m.1, Part.value m.2)) name = false := by
    rw [Members.has, Members.get?_eq_none_iff.mpr hparts]
    rfl
  rw [List.map_append, List.map_singleton, ← Members.put_of_not_mem hparts]
  simp only [Progress.step, Body.within, Body.assign, hhas]
  rfl

/-- Assignments to different names put one member after the other. -/
theorem foldlM_assign (before after : Value.Table)
    (h : (Members.names (before ++ after)).Nodup) :
    (after.map fun m => Statement.assign [m.1] m.2).foldlM Progress.step
        ⟨before.map fun m => (m.1, Part.value m.2), [], 0⟩ =
      .ok ⟨(before ++ after).map fun m => (m.1, Part.value m.2), [], 0⟩ := by
  induction after generalizing before with
  | nil =>
    rw [List.append_nil]
    rfl
  | cons m after ih =>
    obtain ⟨name, v⟩ := m
    have hnew : name ∉ Members.names before := by
      unfold Members.names at h ⊢
      rw [List.map_append, List.map_cons, List.nodup_append] at h
      intro hmem
      exact h.2.2 name hmem name List.mem_cons_self rfl
    have hrest := ih (before ++ [(name, v)]) (by rwa [List.append_assoc])
    rw [List.append_assoc] at hrest
    rw [List.map_cons, List.foldlM_cons, step_assign v hnew]
    exact hrest

/-- A document of assignments to different names says just these. -/
theorem read_of_assignments {s : String} {t : Value.Table} (h : (Members.names t).Nodup)
    (hs : statements s = (t.map fun m => .assign [m.1] m.2, none)) : read s = .ok t := by
  have hsteps : (t.map fun m => Statement.assign [m.1] m.2).foldlM Progress.step Progress.start =
      .ok ⟨t.map fun m => (m.1, Part.value m.2), [], 0⟩ := foldlM_assign [] t h
  unfold read
  simp only [hs, hsteps, bodyTable_map_value]

end LintGateway.Toml
