import LintGateway.Proofs.LinterConfig
import LintGateway.Proofs.Value.Names

/-!
# The severity that the linter is told

The severity of a rule travels to the linter as a member of its options, and it is put there only
when it is a warning: the linter takes a rule for an error unless it is told something else. The
options that the host gives go into the same object, and one of them may be called `severity` too. A
warning replaces such an option, whatever it says. An error replaces nothing, so the option stands,
and the linter is told what the option says in place of the severity that the host asked for.
`severity_told` says when the two are the same.
-/

set_option autoImplicit false

namespace LintGateway

open Rule (Descriptor Registry)

namespace RuleSettings

/-- The severity that the linter reads from the entry of a rule: that of the options, or an error
when they name none and when there are no options. The linter has no severity for a rule that is
off. -/
def toldSeverity : Value → Option Value
  | .bool true => some (.text Severity.error.name)
  | .list [.bool true, .record options] =>
    some ((Members.get? options severityOption).getD (.text Severity.error.name))
  | _ => none

/-- The value that a list of options gives to the severity: the last one, if it is named at all. -/
def namedSeverity (options : Rule.Options) : Option Value := options.reverse.lookup severityOption

/-- The written severity option is that of the options, or the severity of the rule if it is not
standard. -/
theorem get?_secondary_severity (s : RuleSettings) :
    Members.get? s.secondary severityOption =
      if s.severity = .standard then namedSeverity s.options else some (.text s.severity.name) := by
  have hoptions : Members.get? (Rule.Options.toTable s.options) severityOption =
      namedSeverity s.options := Members.get?_ofList s.options severityOption
  unfold secondary
  by_cases h : s.severity = .standard
  · rw [if_pos h, if_pos h, hoptions]
  · rw [if_neg h, if_neg h, Members.get?_put, if_pos rfl]

/-- The severity told for an enabled rule is that of its secondary options, or else an error. -/
theorem toldSeverity_toValue {s : RuleSettings} (hon : s.enabled = true) :
    toldSeverity s.toValue =
      some ((Members.get? s.secondary severityOption).getD (.text Severity.error.name)) := by
  unfold toValue
  rw [hon]
  by_cases hnone : s.secondary = []
  · rw [hnone]
    rfl
  · have hsome : s.secondary.isEmpty = false := by simpa using hnone
    rw [hsome]
    rfl

/-- The entry of an active rule tells a warning as such, and for an error whatever the options
name. -/
theorem toldSeverity_ofDescriptor (d : Descriptor) :
    toldSeverity (ofDescriptor d).toValue =
      some (if d.severity = .standard
        then (namedSeverity d.options).getD (.text Severity.error.name)
        else .text d.severity.name) := by
  rw [toldSeverity_toValue rfl, get?_secondary_severity]
  have hseverity : (ofDescriptor d).severity = d.severity := rfl
  have hoptions : (ofDescriptor d).options = d.options := rfl
  rw [hseverity, hoptions]
  by_cases h : d.severity = .standard
  · rw [if_pos h, if_pos h]
  · rw [if_neg h, if_neg h]
    rfl

/-- The severity of a rule is told unless it is standard and an option names another. -/
theorem toldSeverity_eq_iff (d : Descriptor) :
    toldSeverity (ofDescriptor d).toValue = some (.text d.severity.name) ↔
      d.severity ≠ .standard ∨
        ∀ v, namedSeverity d.options = some v → v = .text Severity.standard.name := by
  rw [toldSeverity_ofDescriptor, Option.some.injEq]
  by_cases h : d.severity = .standard
  · rw [if_pos h, h]
    have hother : ¬ (Severity.standard ≠ Severity.standard) := fun hne => hne rfl
    rw [or_iff_right hother]
    cases hnamed : namedSeverity d.options with
    | none => simp [Severity.standard]
    | some v => simp
  · rw [if_neg h]
    exact ⟨fun _ => Or.inl h, fun _ => rfl⟩

end RuleSettings

namespace LinterConfig

open RuleSettings

/-- Whatever the order in which its rules are listed, the document for a registry has an entry for
each of them. It tells a warning as a warning. It tells an error as what the options of the rule
name last as the severity, and as an error when they name none. So the linter is told the severity
of the rule exactly when that is a warning, or when no other severity stands in the options. -/
theorem severity_told {registry : Registry} {order : List Descriptor}
    (horder : order.Perm registry.activeRules) {d : Descriptor} (hd : d ∈ registry.activeRules) :
    ∃ rules v, (ofDescriptors order).toDocument = .record [("rules", .record rules)] ∧
      Members.get? rules d.externalId = some v ∧
      toldSeverity v = some (if d.severity = .standard
        then (namedSeverity d.options).getD (.text Severity.error.name)
        else .text d.severity.name) ∧
      (toldSeverity v = some (.text d.severity.name) ↔
        d.severity = .warning ∨
          ∀ w, namedSeverity d.options = some w → w = .text Severity.error.name) := by
  have hnodup := registry.externalIds_nodup
  rw [Registry.activeRules_eq_descriptors] at horder hd
  have hwarning : d.severity = .warning ↔ d.severity ≠ .standard := by
    cases d.severity <;> decide
  refine ⟨(ofDescriptors registry.descriptors).entries, (ofDescriptor d).toValue, ?_, ?_,
    toldSeverity_ofDescriptor d, ?_⟩
  · rw [ofDescriptors_eq_of_perm horder hnodup]
    rfl
  · rw [get?_entries_iff hnodup]
    exact ⟨d, hd, rfl, rfl⟩
  · rw [hwarning]
    exact toldSeverity_eq_iff d

/-- A rule of a severity whose options name others, one after the other. -/
def contested (severity : Severity) : Descriptor where
  externalId := "block-no-empty"
  key := ⟨"css", "S4658"⟩
  options := [("severity", .null), ("ignore", .tuple [.text "comments"]),
    ("severity", .text "warning")]
  severity := severity

/-- The registry with that rule alone. -/
def contestedOnly (severity : Severity) : Registry := ⟨[contested severity], by simp⟩

/-- A warning is told as one, although the options name other severities. -/
theorem severity_told_contested :
    contested .warning ∈ (contestedOnly .warning).activeRules ∧
      ∃ rules v, (ofDescriptors [contested .warning]).toDocument =
          .record [("rules", .record rules)] ∧
        Members.get? rules "block-no-empty" = some v ∧
        toldSeverity v = some (.text Severity.warning.name) := by
  have hactive : contested .warning ∈ (contestedOnly .warning).activeRules :=
    List.mem_singleton_self _
  obtain ⟨rules, v, hdocument, hentry, -, htold⟩ := severity_told (.refl _) hactive
  exact ⟨hactive, rules, v, hdocument, hentry, htold.mpr (Or.inl rfl)⟩

/-- An error is told as a warning when the options name that last. -/
theorem error_told_as_warning :
    contested .error ∈ (contestedOnly .error).activeRules ∧
      ∃ rules v, (ofRegistry (contestedOnly .error)).toDocument =
          .record [("rules", .record rules)] ∧
        Members.get? rules (contested .error).externalId = some v ∧
        toldSeverity v = some (.text Severity.warning.name) ∧
        toldSeverity v ≠ some (.text (contested .error).severity.name) := by
  have htold : toldSeverity (ofDescriptor (contested .error)).toValue =
      some (.text Severity.warning.name) := toldSeverity_ofDescriptor (contested .error)
  have hentry : Members.get? (ofDescriptors (contestedOnly .error).activeRules).entries
      (contested .error).externalId = some (ofDescriptor (contested .error)).toValue :=
    (get?_entries_iff (contestedOnly .error).externalIds_nodup _ _).mpr
      ⟨contested .error, List.mem_singleton_self _, rfl, rfl⟩
  refine ⟨List.mem_singleton_self _, _, _, rfl, hentry, htold, ?_⟩
  rw [htold]
  simp [contested, Severity.name]

end LinterConfig

end LintGateway
