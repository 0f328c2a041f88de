import LintGateway.Proofs.Rule.Activated
import LintGateway.Proofs.Rule.ActivationData
import LintGateway.Proofs.Value.Frozen
import Mathlib.Data.List.Nodup

/-!
# Activating a rule of the catalog

A key stands in the catalog once and so does an identifier, so an activation leads to one entry, and
two of them lead to one identifier exactly when they name one key. What two activated rules of an
identifier say of each other is therefore said of the activations that they come from
(`Activates.fits_iff`).
-/

set_option autoImplicit false

namespace LintGateway.Rule

open Schema

/-! ## The catalog -/

namespace Catalog

/-- A rule added to a catalog comes last in it. -/
theorem entries_of_add {catalog extended : Catalog} {e : CatalogEntry}
    (h : catalog.add e = .ok extended) : extended.entries = catalog.entries ++ [e] := by
  unfold add at h
  split at h
  · cases h
  · split at h
    · cases h
    · rw [← Except.ok.inj h]

/-- A catalog that is accepted holds the entries that were given. -/
theorem entries_of_ofEntries {entries : List CatalogEntry} {catalog : Catalog}
    (h : ofEntries entries = .ok catalog) : catalog.entries = entries := by
  unfold ofEntries at h
  induction entries using List.reverseRecOn generalizing catalog with
  | nil =>
    obtain rfl := Except.ok.inj h
    rfl
  | append_singleton entries e ih =>
    rw [List.foldlM_append, bind_eq_ok_iff] at h
    obtain ⟨before, hbefore, hlast⟩ := h
    have hadd : before.add e = .ok catalog := by simpa using hlast
    rw [entries_of_add hadd, ih hbefore]

/-- A catalog finds under a key the entry that has it. -/
theorem get?_eq_some_iff (catalog : Catalog) (key : Key) (e : CatalogEntry) :
    catalog.get? key = some e ↔ e ∈ catalog.entries ∧ e.key = key :=
  find?_eq_some_iff_of_nodup catalog.keys_nodup

variable {catalog : Catalog} {e f : CatalogEntry}

/-- A catalog has one entry of a key. -/
theorem eq_of_key_eq (he : e ∈ catalog.entries) (hf : f ∈ catalog.entries)
    (h : e.key = f.key) : e = f := List.inj_on_of_nodup_map catalog.keys_nodup he hf h

/-- A catalog has one entry of an external identifier. -/
theorem eq_of_externalId_eq (he : e ∈ catalog.entries) (hf : f ∈ catalog.entries)
    (h : e.externalId = f.externalId) : e = f :=
  List.inj_on_of_nodup_map catalog.externalIds_nodup he hf h

/-- Entries have one identifier exactly when they have one key. -/
theorem externalId_eq_iff (he : e ∈ catalog.entries) (hf : f ∈ catalog.entries) :
    e.externalId = f.externalId ↔ e.key = f.key := by
  constructor
  · intro h
    rw [eq_of_externalId_eq he hf h]
  · intro h
    rw [eq_of_key_eq he hf h]

end Catalog

/-! ## What an activation activates -/

namespace Options

/-- A pair with a text for its name is stored with its value frozen. -/
theorem freezePair_of_saysPair {v : Value} {pair : String × Value} (h : SaysPair v pair) :
    freezePair v = .ok (pair.1, pair.2.freeze) := by
  rcases h with rfl | rfl <;> rfl

/-- Pairs of a name and a value are frozen to the options that they say. -/
theorem mapM_freezePair_of_saysPair {items : List Value} {options : Options}
    (h : List.Forall₂ SaysPair items options) :
    items.mapM freezePair = .ok (Value.freezeMembers options) := by
  rw [mapM_eq_ok_iff, Value.freezeMembers_eq_map, List.forall₂_map_right_iff]
  exact h.imp fun _ _ => freezePair_of_saysPair

/-- A sequence is read as the frozen pairs of its items. -/
theorem readFrozen_sequence_iff {v : Value} {items : List Value} (h : IsSequence v items)
    (options : Options) : readFrozen v = .sound options ↔ items.mapM freezePair = .ok options := by
  rcases h with rfl | rfl <;> cases hpairs : items.mapM freezePair <;> simp [readFrozen, hpairs]

/-- Options are stored frozen in whichever of their forms they are given; null says none. -/
theorem readFrozen_of_saysOptions {v : Value} {options : Option Options}
    (h : SaysOptions v options) : readFrozen v = .sound (Value.freezeMembers (options.getD [])) := by
  rcases h with ⟨rfl, rfl⟩ | ⟨members, rfl, rfl⟩ | ⟨items, given, hitems, hpairs, rfl⟩
  · rfl
  · rfl
  · exact (readFrozen_sequence_iff hitems _).mpr (mapM_freezePair_of_saysPair hpairs)

/-- A table of options says those options. -/
theorem saysOptions_toValue (options : Options) : SaysOptions options.toValue (some options) :=
  Or.inr (Or.inr ⟨_, options, Or.inr rfl,
    List.forall₂_map_left_iff.mpr (List.forall₂_same.mpr fun _ _ => Or.inr rfl), rfl⟩)

/-- Options that are given as pairs are stored frozen, whatever they are. -/
theorem readFrozen_toValue (options : Options) :
    readFrozen options.toValue = .sound (Value.freezeMembers options) :=
  readFrozen_of_saysOptions (saysOptions_toValue options)

end Options

namespace Activation

/-- The options of a rule of the catalog that is activated, frozen: those that are given, though
there be none among them, or else those of the catalog. -/
def frozenOptions (a : Activation) (e : CatalogEntry) : Options :=
  Value.freezeMembers (a.options.getD e.defaults)

/-- The activated rule of an entry. -/
def activated (a : Activation) (e : CatalogEntry) : Activated where
  descriptor := ⟨e.externalId, e.key, a.frozenOptions e, a.severity⟩
  standing := a.options.isNone

/-- An activation activates a rule of the catalog: that of the entry of its key. -/
def Activates (catalog : Catalog) (a : Activation) (x : Activated) : Prop :=
  ∃ e ∈ catalog.entries, e.key = a.key ∧ x = a.activated e

/-- Two activations say the same, if they are of one key: they have one severity, and their options
agree, unless they both take those of the catalog. -/
def SaysSame (entries : List CatalogEntry) (a b : Activation) : Prop :=
  a.key = b.key → a.severity = b.severity ∧
    ((a.options = none ∧ b.options = none) ∨
      ∀ e ∈ entries, e.key = a.key → (a.frozenOptions e).agrees (b.frozenOptions e) = true)

/-- An activation is described as the rule of the entry of its key. -/
theorem describe_of_mem {catalog : Catalog} {a : Activation} {e : CatalogEntry}
    (he : e ∈ catalog.entries) (hkey : e.key = a.key) (hid : e.externalId ≠ "") :
    a.describe catalog = .ok (a.activated e) := by
  have hmake : Descriptor.make (.text e.externalId) e.key (a.options.getD e.defaults).toValue
      a.severity = .sound (a.activated e).descriptor := by
    unfold Descriptor.make
    rw [Checked.seq_eq_sound_iff]
    refine ⟨_, a.frozenOptions e, (Checked.map_eq_sound_iff _ _ _).mpr ⟨e.externalId, ?_, rfl⟩,
      (Checked.under_eq_sound_iff _ _ _).mpr (Options.readFrozen_toValue _), rfl⟩
    rw [Checked.under_eq_sound_iff, readNonemptyText_eq_sound_iff]
    exact ⟨rfl, hid⟩
  unfold describe
  rw [(catalog.get?_eq_some_iff a.key e).mpr ⟨he, hkey⟩]
  simp only [hmake]
  rfl

section Describe

variable {catalog : Catalog} (hids : ∀ e ∈ catalog.entries, e.externalId ≠ "")

include hids

/-- An activation is described by what the catalog has under its key. -/
theorem describe_eq (a : Activation) :
    a.describe catalog =
      match catalog.get? a.key with
      | none => .error (.config (.unknownKey a.key))
      | some e => .ok (a.activated e) := by
  cases he : catalog.get? a.key with
  | none =>
    unfold describe
    rw [he]
  | some e =>
    obtain ⟨hmem, hkey⟩ := (catalog.get?_eq_some_iff a.key e).mp he
    exact describe_of_mem hmem hkey (hids e hmem)

/-- An activation is described by what it activates. -/
theorem describe_eq_ok_iff (a : Activation) (x : Activated) :
    a.describe catalog = .ok x ↔ Activates catalog a x := by
  unfold Activates
  rw [describe_eq hids]
  cases he : catalog.get? a.key with
  | none =>
    have hnone : ∀ e ∈ catalog.entries, e.key ≠ a.key := by
      intro e hmem hkey
      rw [(catalog.get?_eq_some_iff a.key e).mpr ⟨hmem, hkey⟩] at he
      cases he
    constructor
    · intro h
      cases h
    · rintro ⟨e, hmem, hkey, -⟩
      exact absurd hkey (hnone e hmem)
  | some e =>
    obtain ⟨hmem, hkey⟩ := (catalog.get?_eq_some_iff a.key e).mp he
    constructor
    · intro h
      exact ⟨e, hmem, hkey, (Except.ok.inj h).symm⟩
    · rintro ⟨f, hf, hfkey, rfl⟩
      rw [Catalog.eq_of_key_eq hmem hf (hkey.trans hfkey.symm)]

/-- An activation is refused by an error of configuration and by no other. -/
theorem config_of_describe {a : Activation} {error : ActivationError}
    (h : a.describe catalog = .error error) : ∃ cause, error = .config cause := by
  rw [describe_eq hids] at h
  split at h
  · exact ⟨_, (Except.error.inj h).symm⟩
  · cases h

/-- A value is described by what the activation that it says activates. -/
theorem describeValue_eq_ok_iff (v : Value) (x : Activated) :
    describeValue catalog v = .ok x ↔ ∃ a, SaysActivation v a ∧ Activates catalog a x := by
  unfold describeValue
  simp only [← read_eq_sound_iff, ← describe_eq_ok_iff hids]
  cases read v with
  | sound a => simp
  | faulty first others =>
    dsimp only
    split <;> simp

/-- Data says an activation that activates a rule. -/
def Activable (catalog : Catalog) (v : Value) : Prop :=
  ∃ a, SaysActivation v a ∧ ∃ e ∈ catalog.entries, e.key = a.key

/-- The values that are described are those that can be activated. -/
theorem exists_describeValue_iff (v : Value) :
    (∃ x, describeValue catalog v = .ok x) ↔ Activable catalog v := by
  simp only [describeValue_eq_ok_iff hids]
  constructor
  · rintro ⟨_, a, ha, e, he, hkey, -⟩
    exact ⟨a, ha, e, he, hkey⟩
  · rintro ⟨a, ha, e, he, hkey⟩
    exact ⟨_, a, ha, e, he, hkey, rfl⟩

/-- Data that activates no rule does so for a reason that the host is told as one of its
configuration, unless it says no activation and cannot be written. -/
theorem describeValue_eq_error {v : Value} {error : ActivationError}
    (h : describeValue catalog v = .error error) :
    (∃ cause, error = .config cause) ∨
      error = .longInteger ∧ (¬ ∃ a, SaysActivation v a) ∧ v.isWritable = false := by
  unfold describeValue at h
  simp only [← read_eq_sound_iff]
  cases hread : read v with
  | sound a =>
    rw [hread] at h
    exact Or.inl (config_of_describe hids h)
  | faulty first others =>
    simp only [hread] at h
    by_cases hwritable : v.isWritable = true
    · rw [if_pos hwritable] at h
      exact Or.inl ⟨_, (Except.error.inj h).symm⟩
    · rw [if_neg hwritable] at h
      refine Or.inr ⟨(Except.error.inj h).symm, ?_, Bool.eq_false_iff.mpr hwritable⟩
      rintro ⟨a, ha⟩
      cases ha

/-- The message for a value cannot be written when it says no activation and holds a long integer.
-/
theorem describeValue_eq_longInteger_iff (v : Value) :
    describeValue catalog v = .error .longInteger ↔
      (¬ ∃ a, SaysActivation v a) ∧ v.isWritable = false := by
  constructor
  · intro h
    rcases describeValue_eq_error hids h with ⟨_, hcause⟩ | ⟨-, hlong⟩
    · cases hcause
    · exact hlong
  · rintro ⟨hnone, hlong⟩
    unfold describeValue
    cases hread : read v with
    | sound a => exact absurd ⟨a, (read_eq_sound_iff v a).mp hread⟩ hnone
    | faulty first others => rw [hlong]; rfl

end Describe

/-! ## Two activations -/

section Two

variable {catalog : Catalog} {a b : Activation} {x y : Activated}

/-- An activation repeats another when neither has options and both have one severity. -/
theorem repeats_activated_iff (a b : Activation) (e f : CatalogEntry) :
    (a.activated e).repeats (b.activated f) = true ↔
      a.severity = b.severity ∧ a.options = none ∧ b.options = none := by
  rw [Activated.repeats_iff]
  constructor
  · rintro ⟨ha, hb, hseverity⟩
    exact ⟨hseverity, Option.isNone_iff_eq_none.mp ha, Option.isNone_iff_eq_none.mp hb⟩
  · rintro ⟨hseverity, ha, hb⟩
    exact ⟨Option.isNone_iff_eq_none.mpr ha, Option.isNone_iff_eq_none.mpr hb, hseverity⟩

/-- Activated rules have one identifier exactly when their activations name one key. -/
theorem Activates.externalId_eq_iff (hx : Activates catalog a x) (hy : Activates catalog b y) :
    x.descriptor.externalId = y.descriptor.externalId ↔ a.key = b.key := by
  obtain ⟨e, he, hekey, rfl⟩ := hx
  obtain ⟨f, hf, hfkey, rfl⟩ := hy
  rw [← hekey, ← hfkey]
  exact Catalog.externalId_eq_iff he hf

/-- Of one external identifier, an activation that repeats another has its descriptor. -/
theorem Activates.eq_of_repeats (hx : Activates catalog a x) (hy : Activates catalog b y)
    (hid : x.descriptor.externalId = y.descriptor.externalId) (h : x.repeats y = true) :
    x.descriptor = y.descriptor := by
  obtain ⟨e, he, -, rfl⟩ := hx
  obtain ⟨f, hf, -, rfl⟩ := hy
  obtain rfl : e = f := Catalog.eq_of_externalId_eq he hf hid
  obtain ⟨hseverity, ha, hb⟩ := (repeats_activated_iff a b e e).mp h
  simp only [activated, frozenOptions, ha, hb, hseverity]

/-- Activated rules fit together exactly when their activations say the same. -/
theorem Activates.fits_iff (hx : Activates catalog a x) (hy : Activates catalog b y) :
    x.Fits y ↔ a.SaysSame catalog.entries b := by
  unfold Activated.Fits SaysSame
  rw [hx.externalId_eq_iff hy]
  refine imp_congr_right fun hkey => ?_
  obtain ⟨e, he, hekey, rfl⟩ := hx
  obtain ⟨f, hf, hfkey, rfl⟩ := hy
  obtain rfl : e = f := Catalog.eq_of_key_eq he hf (hekey.trans (hkey.trans hfkey.symm))
  have honly : (∀ g ∈ catalog.entries, g.key = a.key →
      (a.frozenOptions g).agrees (b.frozenOptions g) = true) ↔
        (a.frozenOptions e).agrees (b.frozenOptions e) = true := by
    constructor
    · intro h
      exact h e he hekey
    · intro h g hg hgkey
      rw [Catalog.eq_of_key_eq hg he (hgkey.trans hekey.symm)]
      exact h
  have hagrees : (a.activated e).descriptor.agrees (b.activated e).descriptor = true ↔
      a.severity = b.severity ∧ (a.frozenOptions e).agrees (b.frozenOptions e) = true := by
    rw [Descriptor.agrees_iff]
    simp [activated, Options.agrees, and_comm]
  unfold Activated.Admits
  rw [honly, repeats_activated_iff, hagrees, and_or_left]

end Two

end Activation

end LintGateway.Rule
