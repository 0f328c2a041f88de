import LintGateway.LinterConfig
import LintGateway.Proofs.Rule.Catalog
import LintGateway.Proofs.Value.Frozen

/-!
# The one form of stored options

Options come as null, as a record or as a sequence of pairs, to a descriptor directly or by way of
an activation. They are stored frozen in each case, so the same options are stored as the same,
however they came, and what is stored can be given again. Descriptors that differ in the form of
their options only are therefore the same, and so are the registries and the configurations made of
them.
-/

set_option autoImplicit false

namespace LintGateway.Rule

open Schema

namespace Options

/-- No list stands in the values of options, at any depth. -/
def IsFrozen (options : Options) : Prop := ∀ o ∈ options, o.2.IsFrozen

/-- The stored options are the given ones, with tuples in the place of the sequences in their
values. -/
def FreezeTo (given stored : Options) : Prop :=
  List.Forall₂ (fun g s => g.1 = s.1 ∧ g.2.FreezesTo s.2) given stored

/-- Freezing the values of a table gives a table that it freezes to. -/
theorem freezeTo_freezeMembers (given : Options) : FreezeTo given (Value.freezeMembers given) := by
  rw [Value.freezeMembers_eq_map]
  exact forall₂_map_self fun o _ => ⟨rfl, Value.freezesTo_freeze o.2⟩

/-- Freezing gives frozen options. -/
theorem isFrozen_freezeMembers (given : Options) : IsFrozen (Value.freezeMembers given) :=
  forall_mem_of_forall₂ ((freezeTo_freezeMembers given).imp fun _ _ h => h.2.isFrozen)

/-- Frozen options stay what they are when they are frozen. -/
theorem freezeMembers_of_isFrozen {options : Options} (h : IsFrozen options) :
    Value.freezeMembers options = options :=
  Value.freezeMembers_eq_self fun o ho => Value.freeze_of_isFrozen (h o ho)

/-- The value of a pair is stored frozen, whatever stands for the name. -/
theorem isFrozen_of_freezePair {v : Value} {pair : String × Value}
    (h : freezePair v = .ok pair) : pair.2.IsFrozen := by
  have hnamed : ∀ name x : Value,
      (if name.isWritable then .ok (name.toText, x.freeze) else .error Refusal.longInteger) =
        (.ok pair : Except Refusal (String × Value)) → pair.2.IsFrozen := by
    intro name x hname
    split at hname
    · rw [← Except.ok.inj hname]
      exact (Value.freezesTo_freeze x).isFrozen
    · cases hname
  unfold freezePair at h
  split at h
  · exact hnamed _ _ h
  · exact hnamed _ _ h
  · cases h

/-- Options that are accepted are stored without lists. -/
theorem isFrozen_of_readFrozen {v : Value} {options : Options}
    (h : readFrozen v = .sound options) : IsFrozen options := by
  have hitems : ∀ items, IsSequence v items → IsFrozen options := by
    intro items hsequence
    have hpairs := (mapM_eq_ok_iff _ _ _).mp ((readFrozen_sequence_iff hsequence options).mp h)
    exact forall_mem_of_forall₂ (hpairs.imp fun _ _ => isFrozen_of_freezePair)
  cases v with
  | null => exact Checked.sound.inj h ▸ List.forall_mem_nil _
  | record members => exact Checked.sound.inj h ▸ isFrozen_freezeMembers members
  | list items => exact hitems items (Or.inl rfl)
  | tuple items => exact hitems items (Or.inr rfl)
  | _ => exact absurd h (Checked.reject_ne_sound _ _ _)

/-- Stored options that are given again are stored as they are. -/
theorem readFrozen_stored {options : Options} (h : IsFrozen options) :
    readFrozen options.toValue = .sound options := by
  rw [readFrozen_toValue, freezeMembers_of_isFrozen h]

end Options

namespace Descriptor

/-- The members of a table other than the options are those of a descriptor. -/
def FitsBesides (d : Descriptor) (t : Value.Table) : Prop :=
  (∃ v, Members.get? t "external_id" = some v ∧ readNonemptyText v = .sound d.externalId) ∧
    (∃ v, Members.get? t "internal_key" = some v ∧ Key.read v = .sound d.key) ∧
    ((Members.get? t "severity" = none ∧ d.severity = .standard) ∨
      ∃ v, Members.get? t "severity" = some v ∧ Severity.read v = .sound d.severity)

/-- A descriptor is read from its other members and its options, which may be left out. -/
theorem read_eq_sound_iff (t : Value.Table) (d : Descriptor) :
    read (.record t) = .sound d ↔ d.FitsBesides t ∧
      ((Members.get? t "options" = none ∧ d.options = []) ∨
        ∃ v, Members.get? t "options" = some v ∧ Options.readFrozen v = .sound d.options) := by
  unfold read FitsBesides
  rw [readRecord_eq_sound_iff]
  simp only [Value.record.injEq, exists_eq_left', Checked.seq_eq_sound_iff,
    Checked.map_eq_sound_iff, required_single_eq_sound_iff, optional_eq_sound_iff]
  constructor
  · rintro ⟨_, severity, ⟨_, options, ⟨_, key, ⟨externalId, hid, rfl⟩, hkey, rfl⟩, hoptions, rfl⟩,
      hseverity, rfl⟩
    exact ⟨⟨hid, hkey, hseverity⟩, hoptions⟩
  · rintro ⟨⟨hid, hkey, hseverity⟩, hoptions⟩
    exact ⟨_, d.severity, ⟨_, d.options, ⟨_, d.key, ⟨d.externalId, hid, rfl⟩, hkey, rfl⟩, hoptions,
      rfl⟩, hseverity, rfl⟩

/-- With other options the rest of a descriptor is read as before. -/
theorem read_put_options_iff (t : Value.Table) (v : Value) (d : Descriptor) :
    read (.record (Members.put t "options" v)) = .sound d ↔
      d.FitsBesides t ∧ Options.readFrozen v = .sound d.options := by
  have hother : ∀ name, name ≠ "options" →
      Members.get? (Members.put t "options" v) name = Members.get? t name := by
    intro name hname
    rw [Members.get?_put, if_neg hname]
  rw [read_eq_sound_iff, Members.get?_put, if_pos rfl]
  unfold FitsBesides
  rw [hother _ (by decide), hother _ (by decide), hother _ (by decide)]
  simp

/-- A descriptor that was read has frozen options. -/
theorem isFrozen_of_read {t : Value.Table} {d : Descriptor} (h : read (.record t) = .sound d) :
    d.options.IsFrozen := by
  rcases ((read_eq_sound_iff t d).mp h).2 with ⟨-, hnone⟩ | ⟨v, -, hread⟩
  · rw [hnone]
    exact List.forall_mem_nil _
  · exact Options.isFrozen_of_readFrozen hread

/-- What a descriptor has stored can be given again, and says the same descriptor. -/
theorem read_put_stored {t : Value.Table} {d : Descriptor} (h : read (.record t) = .sound d) :
    read (.record (Members.put t "options" d.options.toValue)) = .sound d :=
  (read_put_options_iff t _ d).mpr
    ⟨((read_eq_sound_iff t d).mp h).1, Options.readFrozen_stored (isFrozen_of_read h)⟩

/-- A descriptor takes any options in the place of its own. Whatever the form in which they are
given, one and the same is stored. -/
theorem read_put_of_saysOptions {t : Value.Table} {d : Descriptor} (h : read (.record t) = .sound d)
    {v : Value} {given : Option Options} (hv : SaysOptions v given) :
    read (.record (Members.put t "options" v)) =
      .sound { d with options := Value.freezeMembers (given.getD []) } :=
  (read_put_options_iff t v _).mpr
    ⟨((read_eq_sound_iff t d).mp h).1, Options.readFrozen_of_saysOptions hv⟩

/-- The options of a descriptor are the frozen ones of those that it was given. -/
theorem options_of_read {t : Value.Table} {d : Descriptor} {v : Value} {options : Options}
    (h : read (.record t) = .sound d) (hv : Members.get? t "options" = some v)
    (hgiven : SaysOptions v (some options)) : d.options = Value.freezeMembers options := by
  have hstored := Options.readFrozen_of_saysOptions hgiven
  rcases ((read_eq_sound_iff t d).mp h).2 with ⟨hnone, -⟩ | ⟨w, hw, hread⟩
  · rw [hv] at hnone
    cases hnone
  · rw [hv, Option.some.injEq] at hw
    rw [← hw, hstored] at hread
    exact (Checked.sound.inj hread).symm

/-- A descriptor that was read has an external identifier. -/
theorem externalId_ne_empty {t : Value.Table} {d : Descriptor} (h : read (.record t) = .sound d) :
    d.externalId ≠ "" := by
  obtain ⟨⟨v, -, hid⟩, -⟩ := ((read_eq_sound_iff t d).mp h).1
  exact ((readNonemptyText_eq_sound_iff v d.externalId).mp hid).2

end Descriptor

/-! ## Options by way of an activation -/

open Activation (Activated)

/-- An activation given as data, and a descriptor given directly, tell the same: they are of one
rule of the catalog, have one severity, and are given the same options, be it in different forms. -/
def TellsAlike (catalog : Catalog) (given : Value) (d : Descriptor) : Prop :=
  ∃ a options, SaysActivation given a ∧ a.options = some options ∧
    (∃ e ∈ catalog.entries, e.key = a.key ∧ d.key = e.key ∧ d.externalId = e.externalId) ∧
    d.severity = a.severity ∧
    ∃ t v, Descriptor.read (.record t) = .sound d ∧ Members.get? t "options" = some v ∧
      SaysOptions v (some options)

/-- What is told alike is one descriptor. -/
theorem TellsAlike.exists_describe {catalog : Catalog} {given : Value} {d : Descriptor}
    (h : TellsAlike catalog given d) :
    ∃ a, Activation.read given = .sound a ∧ a.describe catalog = .ok (.own d) := by
  obtain ⟨a, options, hgiven, ha, ⟨e, he, hekey, hkey, hid⟩, hseverity, t, v, hread, hv,
    hoptions⟩ := h
  have hactivated : a.activated e = .own d := by
    have hstored : d.options = a.frozenOptions e := by
      rw [Descriptor.options_of_read hread hv hoptions]
      unfold Activation.frozenOptions
      rw [ha, Option.getD_some]
    unfold Activation.activated Activated.own
    rw [← hid, ← hkey, ← hstored, ← hseverity, ha, Option.isNone_some]
  have hne : e.externalId ≠ "" := hid ▸ Descriptor.externalId_ne_empty hread
  refine ⟨a, (Activation.read_eq_sound_iff given a).mpr hgiven, ?_⟩
  rw [Activation.describe_of_mem he hekey hne, hactivated]

namespace Registry

variable {catalog : Catalog} {given : List Value} {ds : List Descriptor}

/-- Activations make the registry that descriptors make which tell the same, one by one. -/
theorem ofActivationValues_eq_of_tellsAlike (h : List.Forall₂ (TellsAlike catalog) given ds) :
    ofActivationValues catalog given = (ofDescriptors ds).mapError .config := by
  have hwalk : (given.map (Activation.describeValue catalog)).mapM id =
      .ok (ds.map Activated.own) := by
    rw [List.mapM_map, mapM_eq_ok_iff, List.forall₂_map_right_iff]
    refine h.imp fun g d halike => ?_
    obtain ⟨a, hread, hdescribe⟩ := halike.exists_describe
    show Activation.describeValue catalog g = .ok (.own d)
    unfold Activation.describeValue
    rw [hread]
    exact hdescribe
  unfold ofActivationValues collect
  rw [hwalk]
  show (ofActivated (ds.map Activated.own)).mapError ActivationError.config = _
  rw [ofActivated_own]

/-- So the linter is told the same. -/
theorem serialize?_eq_of_tellsAlike (h : List.Forall₂ (TellsAlike catalog) given ds)
    {r s : Registry} (hr : ofActivationValues catalog given = .ok r)
    (hs : ofDescriptors ds = .ok s) :
    (LinterConfig.ofRegistry r).serialize? = (LinterConfig.ofRegistry s).serialize? := by
  rw [ofActivationValues_eq_of_tellsAlike h, hs] at hr
  obtain rfl : s = r := Except.ok.inj hr
  rfl

end Registry

/-- Options have one form. What an accepted descriptor has stored of them holds no list at any
depth, and gives the same descriptor when it is given again. Of options that are null, a record or
the sequence of its members, a descriptor accepts each form in the place of its own, and stores the
same for all of them: the options themselves with tuples for the sequences in them. Activations with
options are described by the very descriptors that tell the same, so both make one registry or fail
alike, and the linter is told the same. -/
theorem stored_options_have_one_form :
    (∀ t d, Descriptor.read (.record t) = .sound d →
      d.options.IsFrozen ∧
      Descriptor.read (.record (Members.put t "options" d.options.toValue)) = .sound d ∧
      ∀ given : Option Options, ∃ stored : Options, Options.FreezeTo (given.getD []) stored ∧
        ∀ v, SaysOptions v given →
          Descriptor.read (.record (Members.put t "options" v)) =
            .sound { d with options := stored }) ∧
    ∀ catalog given ds, List.Forall₂ (TellsAlike catalog) given ds →
      List.Forall₂ (fun g d => ∃ a, Activation.read g = .sound a ∧
        a.describe catalog = .ok (.own d)) given ds ∧
      Registry.ofActivationValues catalog given = (Registry.ofDescriptors ds).mapError .config ∧
      ∀ r s, Registry.ofActivationValues catalog given = .ok r →
        Registry.ofDescriptors ds = .ok s →
        (LinterConfig.ofRegistry r).serialize? = (LinterConfig.ofRegistry s).serialize? := by
  constructor
  · intro t d h
    refine ⟨Descriptor.isFrozen_of_read h, Descriptor.read_put_stored h, fun given => ?_⟩
    exact ⟨Value.freezeMembers (given.getD []), Options.freezeTo_freezeMembers _,
      fun v hv => Descriptor.read_put_of_saysOptions h hv⟩
  · intro catalog given ds h
    exact ⟨h.imp fun _ _ halike => halike.exists_describe,
      Registry.ofActivationValues_eq_of_tellsAlike h,
      fun r s => Registry.serialize?_eq_of_tellsAlike h⟩

/-- Exceptions to a rule, as a list with a list and a record in it. -/
def nestedExceptions : Value :=
  .list [.text "include", .list [.text "mixin", .int 2], .record [("each", .list [.null])]]

/-- The exceptions as an option, in a list. -/
def listedExceptions : Value := .list [.list [.text "ignore", nestedExceptions]]

/-- The members of a descriptor with the exceptions as an option, in a record. -/
def exceptionsTable : Value.Table :=
  [("external_id", .text "at-rule-no-unknown"),
    ("internal_key", .record [("repository", .text "css"), ("rule", .text "S4662")]),
    ("options", .record [("ignore", nestedExceptions)]), ("severity", .text "warning")]

/-- The descriptor, with tuples. -/
def exceptionsDescriptor : Descriptor where
  externalId := "at-rule-no-unknown"
  key := ⟨"css", "S4662"⟩
  options := [("ignore",
    .tuple [.text "include", .tuple [.text "mixin", .int 2], .record [("each", .tuple [.null])]])]
  severity := .warning

/-- An activation of the rule with the same option, in a list. -/
def exceptionsGiven : Value :=
  .record [("key", .text "css:S4662"), ("severity", .text "minor"), ("options", listedExceptions)]

/-- The descriptor with listed exceptions is read. -/
theorem read_exceptionsTable :
    Descriptor.read (.record exceptionsTable) = .sound exceptionsDescriptor := rfl

/-- The listed exceptions say the options. -/
theorem saysOptions_exceptions :
    SaysOptions listedExceptions (some [("ignore", nestedExceptions)]) :=
  Or.inr (Or.inr ⟨_, _, Or.inl rfl, .cons (Or.inl rfl) .nil, rfl⟩)

/-- The registration and the activation tell the same of the exceptions. -/
theorem tellsAlike_exceptions :
    TellsAlike Catalog.styleSheets exceptionsGiven exceptionsDescriptor := by
  have hkey : SaysKey (.text "css:S4662") ⟨"css", "S4662"⟩ := by
    have hrepository : "css" ≠ "" := by decide
    have hcolon : ':' ∉ "css".toList := by decide
    exact Or.inl ⟨rfl, hrepository, hcolon, by decide⟩
  have hgiven : SaysActivation exceptionsGiven
      ⟨⟨"css", "S4662"⟩, some [("ignore", nestedExceptions)], .warning⟩ :=
    ⟨_, rfl, ⟨_, rfl, hkey⟩, Or.inr ⟨_, rfl, saysOptions_exceptions⟩,
      Or.inr ⟨_, rfl, _, rfl, by decide⟩⟩
  have hentry : (⟨⟨"css", "S4662"⟩, "at-rule-no-unknown", []⟩ : CatalogEntry) ∈
      Catalog.styleSheets.entries :=
    List.mem_map.mpr ⟨("S4662", "at-rule-no-unknown"), by decide, rfl⟩
  exact ⟨_, _, hgiven, rfl, ⟨_, hentry, rfl, rfl, rfl⟩, rfl, exceptionsTable, _,
    read_exceptionsTable, rfl, Or.inr (Or.inl ⟨_, rfl, rfl⟩)⟩

/-- The exceptions are stored with tuples, whether they are given to a descriptor in a record or in
a list, or to an activation, and the linter is told the same. -/
theorem stored_options_have_one_form_exceptions :
    exceptionsDescriptor.options.IsFrozen ∧
    Descriptor.read (.record exceptionsTable) = .sound exceptionsDescriptor ∧
    Descriptor.read (.record (Members.put exceptionsTable "options" listedExceptions)) =
      .sound exceptionsDescriptor ∧
    ∃ r s, Registry.ofActivationValues Catalog.styleSheets [exceptionsGiven] = .ok r ∧
      Registry.ofDescriptors [exceptionsDescriptor] = .ok s ∧
      (LinterConfig.ofRegistry r).serialize? = (LinterConfig.ofRegistry s).serialize? := by
  obtain ⟨hfrozen, -, hforms⟩ := stored_options_have_one_form.1 _ _ read_exceptionsTable
  obtain ⟨stored, -, hsame⟩ := hforms (some [("ignore", nestedExceptions)])
  have hrecord : Descriptor.read (.record exceptionsTable) =
      .sound { exceptionsDescriptor with options := stored } :=
    hsame (.record [("ignore", nestedExceptions)]) (Or.inr (Or.inl ⟨_, rfl, rfl⟩))
  have hlist := hsame _ saysOptions_exceptions
  rw [← hrecord, read_exceptionsTable] at hlist
  obtain ⟨-, hregistry, hbytes⟩ :=
    stored_options_have_one_form.2 _ _ _ (.cons tellsAlike_exceptions .nil)
  have hmade : Registry.ofDescriptors [exceptionsDescriptor] =
      .ok ⟨[exceptionsDescriptor], by simp⟩ := rfl
  rw [hmade] at hregistry hbytes
  exact ⟨hfrozen, read_exceptionsTable, hlist, _, _, hregistry, hmade, hbytes _ _ hregistry rfl⟩

end LintGateway.Rule
