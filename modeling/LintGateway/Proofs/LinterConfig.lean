import LintGateway.LinterConfig
import LintGateway.Proofs.Sorting

/-!
# The rules in the configuration

The configuration sorts its descriptors by identifier. Where no identifier comes twice, the sorted
list is the only one with these descriptors in this order, so the configuration does not depend on
the order in which they were given, and nothing is lost when it is made into a table. Such are the
rules of a registry.
-/

set_option autoImplicit false

namespace LintGateway

open Rule (Descriptor)

/-- The entry of an active rule is that it is on, with or without options, and never nothing. -/
theorem RuleSettings.toValue_ofDescriptor (d : Descriptor) :
    (ofDescriptor d).toValue = .bool true ∨
      ∃ t, t ≠ [] ∧ (ofDescriptor d).toValue = .list [.bool true, .record t] := by
  have hvalue : (ofDescriptor d).toValue =
      if (ofDescriptor d).secondary.isEmpty then .bool true
      else .list [.bool true, .record (ofDescriptor d).secondary] := rfl
  by_cases h : (ofDescriptor d).secondary.isEmpty = true
  · rw [if_pos h] at hvalue
    exact Or.inl hvalue
  · rw [if_neg h] at hvalue
    refine Or.inr ⟨(ofDescriptor d).secondary, ?_, hvalue⟩
    intro hnil
    exact h (List.isEmpty_iff.mpr hnil)

namespace LinterConfig

variable {ds : List Descriptor}

/-- Descriptors in the order of their identifiers. -/
def sorted (ds : List Descriptor) : List Descriptor :=
  ds.mergeSort fun a b => a.externalId ≤ b.externalId

/-- Sorting keeps the descriptors. -/
theorem sorted_perm (ds : List Descriptor) : (sorted ds).Perm ds := List.mergeSort_perm ds _

/-- Descriptors of different identifiers have them strictly increasing once they are sorted. -/
theorem pairwise_sorted (h : (ds.map Descriptor.externalId).Nodup) :
    (sorted ds).Pairwise fun a b => a.externalId < b.externalId :=
  pairwise_mergeSort_name h

/-- The order in which descriptors of different identifiers are given makes no difference. -/
theorem ofDescriptors_eq_of_perm {order : List Descriptor} (hperm : order.Perm ds)
    (h : (ds.map Descriptor.externalId).Nodup) : ofDescriptors order = ofDescriptors ds := by
  have hsorted : sorted order = sorted ds := mergeSort_name_eq_of_perm hperm h
  unfold ofDescriptors
  exact congrArg (fun es : List Descriptor =>
    (⟨Members.ofList (es.map fun d => (d.externalId, RuleSettings.ofDescriptor d))⟩ :
      LinterConfig)) hsorted

/-- Descriptors of different identifiers have one entry each, in the order of the identifiers. -/
theorem entries_ofDescriptors (h : (ds.map Descriptor.externalId).Nodup) :
    (ofDescriptors ds).entries =
      (sorted ds).map fun d => (d.externalId, (RuleSettings.ofDescriptor d).toValue) := by
  have hnames : (Members.names ((sorted ds).map fun d =>
      (d.externalId, RuleSettings.ofDescriptor d))).Nodup := by
    unfold Members.names
    rw [List.map_map]
    exact ((sorted_perm ds).map Descriptor.externalId).nodup_iff.mpr h
  show (Members.ofList ((sorted ds).map fun d =>
    (d.externalId, RuleSettings.ofDescriptor d))).map (fun r => (r.1, r.2.toValue)) = _
  rw [Members.ofList_eq_self hnames, List.map_map]
  rfl

/-- The names of the entries are the identifiers in their order. -/
theorem names_entries (h : (ds.map Descriptor.externalId).Nodup) :
    (ofDescriptors ds).entries.names = (sorted ds).map Descriptor.externalId := by
  rw [entries_ofDescriptors h]
  unfold Members.names
  rw [List.map_map]
  rfl

/-- The names of the entries are strictly increasing. -/
theorem pairwise_names_entries (h : (ds.map Descriptor.externalId).Nodup) :
    (ofDescriptors ds).entries.names.Pairwise (· < ·) := by
  rw [names_entries h]
  exact List.pairwise_map.mpr (pairwise_sorted h)

/-- The entries of descriptors with different identifiers repeat no name. -/
theorem nodup_names_entries (h : (ds.map Descriptor.externalId).Nodup) :
    (ofDescriptors ds).entries.names.Nodup := by
  rw [names_entries h]
  exact ((sorted_perm ds).map Descriptor.externalId).nodup_iff.mpr h

/-- An identifier has an entry exactly when a descriptor has it. -/
theorem mem_names_entries_iff (h : (ds.map Descriptor.externalId).Nodup) (externalId : String) :
    externalId ∈ (ofDescriptors ds).entries.names ↔
      externalId ∈ ds.map Descriptor.externalId := by
  rw [names_entries h]
  exact ((sorted_perm ds).map Descriptor.externalId).mem_iff

/-- What is found under an identifier is the entry of the descriptor that has it. -/
theorem get?_entries_iff (h : (ds.map Descriptor.externalId).Nodup) (externalId : String)
    (v : Value) :
    (ofDescriptors ds).entries.get? externalId = some v ↔
      ∃ d ∈ ds, d.externalId = externalId ∧ (RuleSettings.ofDescriptor d).toValue = v := by
  rw [Members.get?_eq_some_iff (nodup_names_entries h), entries_ofDescriptors h, List.mem_map]
  simp only [(sorted_perm ds).mem_iff, Prod.mk.injEq]

end LinterConfig

end LintGateway
