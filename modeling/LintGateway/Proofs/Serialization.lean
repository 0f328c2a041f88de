import LintGateway.LinterConfig
import LintGateway.Proofs.Json.ReadBack
import LintGateway.Proofs.Text.Utf8

/-!
# The written configuration reads back

A configuration is written as bytes that stand for one line of JSON, and reading that line gives the
document of the configuration up to the order of the members of its objects. So no identifier, no
option and no character of a text is lost, added or mistaken for another, and two configurations are
written as the same bytes only where their documents are the same.

The options are data of any nesting. The document puts each option four levels down, under the
document itself, the rules, the entry of its rule and the options of that entry, so an option may
nest four levels less deep than the reader goes.
-/

set_option autoImplicit false

namespace LintGateway

/-- How deep the containers of an option may nest so that the document can be read back. -/
def optionLevels : Nat := Json.maxDepth - 4

namespace RuleSettings

variable {s : RuleSettings}

/-- The secondary options of a rule have a name each. -/
theorem nodup_names_secondary (s : RuleSettings) : (Members.names s.secondary).Nodup := by
  have hoptions : (Members.names (Rule.Options.toTable s.options)).Nodup :=
    Members.nodup_names_ofList s.options
  unfold secondary
  split
  · exact hoptions
  · exact Members.nodup_names_put hoptions _ _

/-- What goes with the entry of a rule is plain when its options are. -/
theorem isPlain_of_mem_secondary {levels : Nat} (h : ∀ o ∈ s.options, Json.IsPlain levels o.2)
    {m : String × Value} (hm : m ∈ s.secondary) : Json.IsPlain levels m.2 := by
  have hoption : ∀ m ∈ Rule.Options.toTable s.options, Json.IsPlain levels m.2 :=
    fun m hm => h m (Members.mem_of_mem_ofList hm)
  unfold secondary at hm
  split at hm
  · exact hoption m hm
  · rcases Members.eq_or_mem_of_mem_put hm with rfl | hm
    · exact .text levels s.severity.name
    · exact hoption m hm

/-- The entry of a rule is two levels deeper than its options. -/
theorem isPlain_toValue {levels : Nat} (h : ∀ o ∈ s.options, Json.IsPlain levels o.2) :
    Json.IsPlain (levels + 2) s.toValue := by
  unfold toValue
  split
  · exact .null _
  · split
    · exact .bool _ true
    · refine .sequence rfl fun v hv => ?_
      rcases List.mem_cons.mp hv with rfl | hv
      · exact .bool _ true
      · rw [List.mem_singleton.mp hv]
        exact .record (nodup_names_secondary s) fun m hm => isPlain_of_mem_secondary h hm

end RuleSettings

namespace LinterConfig

variable {config other : LinterConfig}

/-- A configuration of a mapping of rules whose options hold nulls, truth values, integers, texts,
sequences and records of these. -/
structure IsPlain (config : LinterConfig) : Prop where
  names : config.rules.names.Nodup
  options : ∀ r ∈ config.rules, ∀ o ∈ r.2.options, Json.IsPlain optionLevels o.2

/-- The entries of a configuration are named as its rules are. -/
theorem names_entries_eq_names (config : LinterConfig) :
    Members.names config.entries = config.rules.names := by
  unfold entries Members.names
  rw [List.map_map]
  rfl

/-- Every entry of a plain configuration is plain. -/
theorem IsPlain.of_mem_entries (h : config.IsPlain) {m : String × Value}
    (hm : m ∈ config.entries) : Json.IsPlain (optionLevels + 2) m.2 := by
  obtain ⟨r, hr, rfl⟩ := List.mem_map.mp hm
  exact RuleSettings.isPlain_toValue (h.options r hr)

/-- The entries of a plain configuration have a name each. -/
theorem IsPlain.nodup_names_entries (h : config.IsPlain) :
    (Members.names config.entries).Nodup := by
  rw [names_entries_eq_names]
  exact h.names

/-- The document of a plain configuration nests no deeper than the reader goes. -/
theorem IsPlain.toDocument (h : config.IsPlain) :
    Json.IsPlain Json.maxDepth config.toDocument := by
  have hentries : Json.IsPlain (optionLevels + 3) (.record config.entries) :=
    .record h.nodup_names_entries fun m hm => h.of_mem_entries hm
  show Json.IsPlain (optionLevels + 3 + 1) (.record [("rules", .record config.entries)])
  apply Json.IsPlain.record
  · simp [Members.names]
  · intro m hm
    rw [List.mem_singleton.mp hm]
    exact hentries

end LinterConfig

end LintGateway
