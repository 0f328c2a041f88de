import LintGateway.Proofs.Analysis.Outcome
import LintGateway.Proofs.LinterConfig
import LintGateway.Proofs.Rule.Registry

/-!
# The configuration and the issues speak of the same rules

A run uses its rules twice: it writes the configuration from the set of active rules, and it resolves
the rules of findings by their identifiers. Both ways start from the descriptors of the registry, of
which there is one for each identifier, so an identifier stands in the configuration exactly when it
resolves. A linter that reports the rules of its configuration only is never said to report an unknown
one, and every issue has the key of the descriptor that put its rule into the configuration.
-/

set_option autoImplicit false

namespace LintGateway.Analysis

open Report Reconcile
open Rule (Descriptor Registry)

variable {a : Analysis} {machine : Machine} {tree : FileTree} {registry : Registry}

/-! ## The rules in the configuration of a registry -/

/-- The configuration of a registry is that of its descriptors. -/
theorem ofRegistry_eq (registry : Registry) :
    LinterConfig.ofRegistry registry = LinterConfig.ofDescriptors registry.descriptors := by
  unfold LinterConfig.ofRegistry
  rw [Registry.activeRules_eq_descriptors]

/-- The configuration of a registry does not depend on the order of its set of active rules. -/
theorem ofDescriptors_of_perm_activeRules {order : List Descriptor}
    (h : order.Perm registry.activeRules) :
    LinterConfig.ofDescriptors order = LinterConfig.ofRegistry registry := by
  rw [Registry.activeRules_eq_descriptors] at h
  rw [ofRegistry_eq]
  exact LinterConfig.ofDescriptors_eq_of_perm h registry.externalIds_nodup

/-- An identifier stands in the configuration exactly when it resolves. -/
theorem mem_names_entries_iff_resolve (registry : Registry) (externalId : String) :
    externalId ∈ (LinterConfig.ofRegistry registry).entries.names ↔
      ∃ key, registry.resolve externalId = some key := by
  rw [ofRegistry_eq, LinterConfig.mem_names_entries_iff registry.externalIds_nodup,
    Registry.exists_resolve_iff]

/-- An identifier is missing from the configuration exactly when it does not resolve. -/
theorem not_mem_names_entries_iff_resolve (registry : Registry) (externalId : String) :
    externalId ∉ (LinterConfig.ofRegistry registry).entries.names ↔
      registry.resolve externalId = none := by
  rw [mem_names_entries_iff_resolve, Option.eq_none_iff_forall_ne_some, not_exists]

/-- The key that an identifier resolves to is that of the descriptor behind its entry. -/
theorem exists_entry_of_resolve {externalId : String} {key : Rule.Key}
    (h : registry.resolve externalId = some key) :
    ∃ d ∈ registry.activeRules, d.externalId = externalId ∧ d.key = key ∧
      (LinterConfig.ofRegistry registry).entries.get? externalId =
        some (RuleSettings.ofDescriptor d).toValue := by
  obtain ⟨d, hget, hkey⟩ := Option.map_eq_some_iff.mp h
  obtain ⟨hmem, hid⟩ := (Registry.get?_eq_some_iff registry externalId d).mp hget
  have hactive : d ∈ registry.activeRules := by
    rw [Registry.activeRules_eq_descriptors]
    exact hmem
  refine ⟨d, hactive, hid, hkey, ?_⟩
  rw [ofRegistry_eq, LinterConfig.get?_entries_iff registry.externalIds_nodup]
  exact ⟨d, hmem, hid, rfl⟩

/-! ## Runs -/

/-- Whatever a run writes is the configuration of its rules. -/
theorem configured_of_write_mem {p : Path} {content : ByteArray}
    (h : Effect.write p content ∈ (a.run machine tree).value.effects) :
    p = a.configPath ∧ ∃ registry, Configured a registry content := by
  have hcourse := run_course a machine tree
  generalize (a.run machine tree).value = record at h hcourse
  have hone : ∀ {registry : Registry} {text : ByteArray}, Configured a registry text →
      Effect.write p content ∈
        [Effect.write a.configPath text, Effect.start a.command a.directory] →
      p = a.configPath ∧ ∃ registry, Configured a registry content := by
    intro registry text hconfigured hmem
    simp only [List.mem_cons, Effect.write.injEq, reduceCtorEq, List.not_mem_nil, or_false] at hmem
    obtain ⟨rfl, rfl⟩ := hmem
    exact ⟨rfl, registry, hconfigured⟩
  cases hcourse with
  | rejected _ => cases h
  | unwritable _ _ => cases h
  | notStored hconfigured _ =>
    exact hone hconfigured (List.mem_cons.mpr (Or.inl (List.mem_singleton.mp h)))
  | notRun hstored _ => exact hone hstored.toConfigured h
  | notRead hlinted _ => exact hone hlinted.configured h
  | notReconciled hlinted _ _ => exact hone hlinted.configured h
  | done hlinted _ _ => exact hone hlinted.configured h

/-- A run that tells of an unknown rule or gives issues has got a result of the linter, and decides
by it. -/
theorem verdict_of_decided (hrules : Analysis.registry a.rules = .ok registry)
    (h : (∃ u, (a.run machine tree).value.result = .error (.unknownRule u)) ∨
      ∃ issues, (a.run machine tree).value.result = .ok issues) :
    ∃ content ended result, Linted a machine tree registry content ended result ∧
      Verdict a registry result (a.run machine tree).value.result := by
  have hgot : ∀ {other : Registry} {content : ByteArray} {ended : FileTree}
      {result : ProcessResult}, Linted a machine tree other content ended result →
      ∃ content ended result, Linted a machine tree registry content ended result ∧
        Verdict a registry result (a.run machine tree).value.result := by
    intro other content ended result hlinted
    obtain rfl := hlinted.configured.registry_eq hrules
    exact ⟨content, ended, result, hlinted, verdict hlinted⟩
  have hcourse := run_course a machine tree
  generalize hrun : (a.run machine tree).value = record at h hcourse
  cases hcourse with
  | rejected hrejected =>
    rw [hrules] at hrejected
    cases hrejected
  | unwritable _ _ => simp at h
  | notStored _ _ => simp at h
  | @notRun _ _ _ _ e _ _ => cases e <;> simp [ofCommandError] at h
  | notRead hlinted _ =>
    rw [← hrun]
    exact hgot hlinted
  | notReconciled hlinted _ _ =>
    rw [← hrun]
    exact hgot hlinted
  | done hlinted _ _ =>
    rw [← hrun]
    exact hgot hlinted

/-- What the issue of a finding has to do with the configuration: the rule of the finding has an
entry there, and the issue has the key of the descriptor that the entry was made from. -/
def KeyOfEntry (registry : Registry) (rules : Value.Table) (place : InputFile × Finding)
    (issue : NormalizedIssue) : Prop :=
  ∃ d ∈ registry.activeRules, d.externalId = place.2.externalId ∧ d.key = issue.key ∧
    rules.get? place.2.externalId = some (RuleSettings.ofDescriptor d).toValue

/-- For descriptors that make a registry, the configuration holds exactly the identifiers that the
registry resolves, once each and in increasing order, and every one of them switched on. What a run
with these rules writes is that configuration. If the linter reports rules of it only, then the run
does not end with an unknown rule, and each of its issues has the key of the descriptor behind the
entry of its rule. If a report that counts has a finding in a tracked file with another rule, then
the run ends with an unknown rule. -/
theorem configuration_agrees {ds : List Descriptor} (h : Registry.ofDescriptors ds = .ok registry) :
    ∃ rules : Value.Table,
      (∀ order : List Descriptor, order.Perm registry.activeRules →
        (LinterConfig.ofDescriptors order).toDocument = .record [("rules", .record rules)]) ∧
      rules.names.Pairwise (· < ·) ∧
      (∀ externalId, externalId ∈ rules.names ↔ ∃ key, registry.resolve externalId = some key) ∧
      (∀ externalId v, rules.get? externalId = some v →
        v = .bool true ∨ ∃ t, t ≠ [] ∧ v = .list [.bool true, .record t]) ∧
      (∀ externalId key, registry.resolve externalId = some key ↔
        ∃ d ∈ ds, d.externalId = externalId ∧ d.key = key) ∧
      ∀ (a : Analysis) (machine : Machine) (tree : FileTree),
        Analysis.registry a.rules = .ok registry →
        (∀ p content, Effect.write p content ∈ (a.run machine tree).value.effects →
          ∃ text, Json.write? (.record [("rules", .record rules)]) = some text ∧
            content = (String.ofList (text ++ ['\n'])).toUTF8) ∧
        ((∀ content ended result found, Linted a machine tree registry content ended result →
            Report.ofBytes result.stdout = .ok found →
            ∀ entry ∈ found, ∀ f ∈ entry.findings, f.externalId ∈ rules.names) →
          ∀ u, (a.run machine tree).value.result ≠ .error (.unknownRule u)) ∧
        (∀ issues, (a.run machine tree).value.result = .ok issues →
          ∃ content ended result found, Linted a machine tree registry content ended result ∧
            Accepts a.settings result found ∧
            List.Forall₂ (KeyOfEntry registry rules) (trackedFindings a.tracked found) issues) ∧
        ∀ content ended result found, Linted a machine tree registry content ended result →
          Accepts a.settings result found →
          (∃ entry ∈ found, (∃ file, a.tracked entry.sourcePath = some file) ∧
            ∃ f ∈ entry.findings, f.externalId ∉ rules.names) →
          ∃ u, (a.run machine tree).value.result = .error (.unknownRule u) := by
  have hnodup := registry.externalIds_nodup
  refine ⟨(LinterConfig.ofRegistry registry).entries, ?_, ?_, mem_names_entries_iff_resolve registry,
    ?_, Registry.resolve_ofDescriptors_iff h, ?_⟩
  · intro order horder
    rw [ofDescriptors_of_perm_activeRules horder]
    rfl
  · rw [ofRegistry_eq]
    exact LinterConfig.pairwise_names_entries hnodup
  · intro externalId v hv
    rw [ofRegistry_eq, LinterConfig.get?_entries_iff hnodup] at hv
    obtain ⟨d, -, -, rfl⟩ := hv
    exact RuleSettings.toValue_ofDescriptor d
  · intro a machine tree hrules
    refine ⟨?_, ?_, ?_, ?_⟩
    · -- the bytes that are written are those of the document
      intro p content hwrite
      obtain ⟨-, other, hconfigured⟩ := configured_of_write_mem hwrite
      obtain rfl := hconfigured.registry_eq hrules
      have htext := hconfigured.text
      rw [LinterConfig.serialize?_eq_map] at htext
      obtain ⟨cs, hcs, rfl⟩ := Option.map_eq_some_iff.mp htext
      exact ⟨cs, hcs, rfl⟩
    · -- an unknown rule would be that of a finding, which stands in the configuration
      intro honly u hu
      obtain ⟨content, ended, result, hlinted, hverdict⟩ :=
        verdict_of_decided hrules (Or.inl ⟨u, hu⟩)
      obtain ⟨found, haccepts, place, hplace, hrule⟩ := hverdict.unknownRule_iff.mp ⟨u, hu⟩
      obtain ⟨entry, hentry, -, hf⟩ := (mem_trackedFindings_iff a.tracked found place).mp hplace
      have hname := honly content ended result found hlinted haccepts.read entry hentry _ hf
      exact (not_mem_names_entries_iff_resolve registry _).mpr hrule hname
    · intro issues hissues
      obtain ⟨content, ended, result, hlinted, hverdict⟩ :=
        verdict_of_decided hrules (Or.inr ⟨issues, hissues⟩)
      obtain ⟨found, haccepts, heach⟩ := (hverdict.ok_iff issues).mp hissues
      refine ⟨content, ended, result, found, hlinted, haccepts, heach.imp ?_⟩
      intro place issue hissue
      exact exists_entry_of_resolve hissue.key
    · rintro content ended result found hlinted haccepts ⟨entry, hentry, ⟨file, hfile⟩, f, hf, hname⟩
      refine (verdict hlinted).unknownRule_iff.mpr ⟨found, haccepts, (file, f), ?_, ?_⟩
      · exact (mem_trackedFindings_iff a.tracked found (file, f)).mpr ⟨entry, hentry, hfile, hf⟩
      · exact (not_mem_names_entries_iff_resolve registry f.externalId).mp hname

/-- A linter that reports a rule which it was not told about. -/
def strayReport : ProcessResult where
  command := ["stylelint"]
  status := 0
  stdout := ("[\x7b\"source\":\"/a.css\",\"warnings\":" ++
    "[\x7b\"line\":1,\"text\":\"t\",\"rule\":\"no-such-rule\"\x7d]\x7d]").toUTF8
  stderr := ""

/-- The sample run with that linter ends with an unknown rule. -/
theorem configuration_agrees_strayReport :
    ∃ u, (sampleRun.run (machineEnding strayReport) bareTree).value.result =
      .error (.unknownRule u) := by
  obtain ⟨registry, content, ended, hregistry, hlinted⟩ := linted_sampleRun strayReport
  obtain ⟨rules, -, -, hnames, -, hkeys, hruns⟩ := configuration_agrees hregistry
  have hread : Report.ofBytes strayReport.stdout =
      .ok [⟨"/a.css", [⟨"/a.css", ⟨1, Nat.le_refl 1⟩, "t", "no-such-rule", none⟩]⟩] := by
    decide +kernel
  have hstray : "no-such-rule" ∉ rules.names := by
    rw [hnames]
    rintro ⟨key, hkey⟩
    obtain ⟨d, hd, hid, -⟩ := (hkeys _ key).mp hkey
    obtain rfl := List.mem_singleton.mp hd
    exact absurd hid (by decide)
  obtain ⟨-, -, -, hunknown⟩ :=
    hruns sampleRun (machineEnding strayReport) bareTree hlinted.configured.rules
  refine hunknown content ended strayReport _ hlinted ⟨hread, Or.inl rfl⟩ ?_
  exact ⟨_, List.mem_singleton_self _, ⟨_, rfl⟩, _, List.mem_singleton_self _, hstray⟩

end LintGateway.Analysis
