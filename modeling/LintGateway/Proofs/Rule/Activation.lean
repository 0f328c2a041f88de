import LintGateway.Proofs.Rule.Catalog
import Mathlib.Data.List.Dedup

/-!
# The registry of activations

What a registry makes of activated rules (`exists_ofActivated_iff`, `get?_ofActivated`) is carried
over to the activations that they come from, one by one. `ofActivationValues_translates` says of
activations given as data which of them make a registry, and what it then holds.
-/

set_option autoImplicit false

namespace LintGateway.Rule

open Schema

namespace Registry

open Activation (Activable Activated Activates SaysSame)

section Translated

variable {catalog : Catalog} {asked : List Activation} {as : List Activated} {r : Registry}
  (h : List.Forall₂ (Activates catalog) asked as)

include h

/-- A descriptor that is activated is asked for. -/
theorem exists_activates_of_mem {x : Activated} (hx : x ∈ as) :
    ∃ a ∈ asked, Activates catalog a x := exists_mem_of_forall₂ h.flip hx

/-- The descriptors that activations of one catalog give are consistent. -/
theorem isConsistent_of_activates : IsConsistent as := by
  intro x hx y hy hid hrepeats
  obtain ⟨a, -, hax⟩ := exists_activates_of_mem h hx
  obtain ⟨b, -, hby⟩ := exists_activates_of_mem h hy
  exact hax.eq_of_repeats hby hid hrepeats

/-- Activations make a registry exactly when those of one rule say the same. -/
theorem exists_ofActivated_iff_saysSame :
    (∃ r, ofActivated as = .ok r) ↔ asked.Pairwise (SaysSame catalog.entries) := by
  rw [exists_ofActivated_iff (isConsistent_of_activates h)]
  exact (pairwise_iff_of_forall₂ h fun _ _ _ _ hx hy => (hx.fits_iff hy).symm).symm

section Accepted

variable (hr : ofActivated as = .ok r)

include hr

/-- An identifier resolves to a key exactly when an activation names the key and the catalog gives
it that identifier. -/
theorem resolve_ofActivated_iff (externalId : String) (key : Key) :
    r.resolve externalId = some key ↔
      (∃ a ∈ asked, a.key = key) ∧ ∃ e ∈ catalog.entries, e.key = key ∧ e.externalId = externalId := by
  unfold resolve
  rw [get?_ofActivated (isConsistent_of_activates h) hr]
  constructor
  · intro hkey
    obtain ⟨d, hd, rfl⟩ := Option.map_eq_some_iff.mp hkey
    obtain ⟨x, hx, rfl⟩ := Option.map_eq_some_iff.mp hd
    obtain ⟨hmem, hid⟩ := mem_of_findActivated_reverse hx
    obtain ⟨a, ha, e, he, hekey, rfl⟩ := exists_activates_of_mem h hmem
    exact ⟨⟨a, ha, hekey.symm⟩, e, he, rfl, hid⟩
  · rintro ⟨⟨a, ha, rfl⟩, e, he, hekey, rfl⟩
    obtain ⟨x, hx, hax⟩ := exists_mem_of_forall₂ h ha
    have hxid : x.descriptor.externalId = e.externalId := by
      obtain ⟨f, hf, hfkey, rfl⟩ := hax
      exact (Catalog.externalId_eq_iff hf he).mpr (hfkey.trans hekey.symm)
    obtain ⟨last, hlast⟩ := exists_findActivated_of_mem hx
    obtain ⟨hmem, hid⟩ := mem_of_findActivated_reverse hlast
    obtain ⟨b, -, hb⟩ := exists_activates_of_mem h hmem
    have hkey : b.key = a.key := (hb.externalId_eq_iff hax).mp hid
    obtain ⟨f, -, hfkey, rfl⟩ := hb
    rw [← hxid, hlast]
    exact congrArg some (hfkey.trans hkey)

/-- A registry gives a key to one identifier only. -/
theorem resolve_injective {i j : String} {key : Key} (hi : r.resolve i = some key)
    (hj : r.resolve j = some key) : i = j := by
  obtain ⟨-, e, he, hekey, rfl⟩ := (resolve_ofActivated_iff h hr i key).mp hi
  obtain ⟨-, f, hf, hfkey, rfl⟩ := (resolve_ofActivated_iff h hr j key).mp hj
  exact (Catalog.externalId_eq_iff he hf).mpr (hekey.trans hfkey.symm)

/-- The rules of a registry have a key each. -/
theorem nodup_keys : (r.descriptors.map Descriptor.key).Nodup := by
  refine (List.nodup_map_iff_inj_on (r.externalIds_nodup.of_map _)).mpr ?_
  intro d hd e he hkey
  have hid : d.externalId = e.externalId := by
    refine resolve_injective h hr ((resolve_eq_some_iff r _ d.key).mpr ⟨d, hd, rfl, rfl⟩) ?_
    exact (resolve_eq_some_iff r _ d.key).mpr ⟨e, he, rfl, hkey.symm⟩
  exact List.inj_on_of_nodup_map r.externalIds_nodup hd he hid

/-- There are as many rules as keys that the activations name. -/
theorem size_ofActivated : r.size = (asked.map Activation.key).dedup.length := by
  have hmem : ∀ key, key ∈ r.descriptors.map Descriptor.key ↔
      key ∈ (asked.map Activation.key).dedup := by
    intro key
    rw [List.mem_dedup, ← exists_resolve_eq_iff, List.mem_map]
    simp only [resolve_ofActivated_iff h hr]
    constructor
    · rintro ⟨-, hasked, -⟩
      exact hasked
    · rintro ⟨a, ha, rfl⟩
      obtain ⟨x, -, e, he, hekey, -⟩ := exists_mem_of_forall₂ h ha
      exact ⟨e.externalId, ⟨a, ha, rfl⟩, e, he, hekey, rfl⟩
  have hperm := (List.perm_ext_iff_of_nodup (nodup_keys h hr) (List.nodup_dedup _)).mpr hmem
  unfold size
  rw [activeRules_eq_descriptors, ← hperm.length_eq, List.length_map]

/-- An active rule is what the last activation of its key activates. -/
theorem exists_last_activation {d : Descriptor} (hd : d ∈ r.activeRules) :
    ∃ a, asked.reverse.find? (fun a => a.key = d.key) = some a ∧
      ∃ e ∈ catalog.entries, e.key = a.key ∧ d = (a.activated e).descriptor := by
  rw [activeRules_eq_descriptors] at hd
  have hget : r.get? d.externalId = some d := (get?_eq_some_iff r d.externalId d).mpr ⟨hd, rfl⟩
  rw [get?_ofActivated (isConsistent_of_activates h) hr, Option.map_eq_some_iff] at hget
  obtain ⟨x, hx, rfl⟩ := hget
  obtain ⟨a, -, hax⟩ := exists_activates_of_mem h (mem_of_findActivated_reverse hx).1
  have hakey : x.descriptor.key = a.key := by
    obtain ⟨e, -, hekey, rfl⟩ := hax
    exact hekey
  have hsame : ∀ b y, Activates catalog b y →
      decide (b.key = x.descriptor.key) =
        decide (y.descriptor.externalId = x.descriptor.externalId) := by
    intro b y hby
    rw [hakey, decide_eq_decide]
    exact (hby.externalId_eq_iff hax).symm
  obtain ⟨b, hb, e, he, hekey, hxe⟩ :=
    find?_of_forall₂ (List.forall₂_reverse_iff.mpr h) hsame hx
  exact ⟨b, hb, e, he, hekey, congrArg Activated.descriptor hxe⟩

end Accepted

end Translated

/-! ## Activations given as data -/

section Given

variable {catalog : Catalog} (hids : ∀ e ∈ catalog.entries, e.externalId ≠ "")
  {given : List Value}

include hids

/-- A registry is made of the values that say activations which make it. -/
theorem ofActivationValues_eq_ok_iff (r : Registry) :
    ofActivationValues catalog given = .ok r ↔
      ∃ asked as, List.Forall₂ SaysActivation given asked ∧
        List.Forall₂ (Activates catalog) asked as ∧ ofActivated as = .ok r := by
  have hwalk : ∀ as, (given.map (Activation.describeValue catalog)).mapM id = .ok as ↔
      ∃ asked, List.Forall₂ SaysActivation given asked ∧
        List.Forall₂ (Activates catalog) asked as := by
    intro as
    rw [List.mapM_map, mapM_eq_ok_iff, ← forall₂_exists_iff]
    simp only [Function.comp_apply, id_eq, Activation.describeValue_eq_ok_iff hids]
  unfold ofActivationValues collect
  constructor
  · intro h
    split at h
    · cases h
    · rename_i as has
      obtain ⟨asked, hsays, hactivates⟩ := (hwalk as).mp has
      refine ⟨asked, as, hsays, hactivates, ?_⟩
      cases hr : ofActivated as with
      | error cause =>
        rw [hr] at h
        cases h
      | ok s =>
        rw [hr] at h
        exact congrArg Except.ok (Except.ok.inj h)
  · rintro ⟨asked, as, hsays, hactivates, hr⟩
    rw [(hwalk as).mpr ⟨asked, hsays, hactivates⟩]
    show (ofActivated as).mapError ActivationError.config = .ok r
    rw [hr]
    rfl

/-- The first activation that activates no rule decides the failure. -/
theorem ofActivationValues_eq_error {error : ActivationError}
    (h : ofActivationValues catalog given = .error error) :
    (∃ cause, error = .config cause) ∨
      ∃ before v after, given = before ++ v :: after ∧ (∀ u ∈ before, Activable catalog u) ∧
        Activation.describeValue catalog v = .error error := by
  unfold ofActivationValues collect at h
  split at h
  · rename_i cause hcause
    rw [List.mapM_map, mapM_eq_error_iff] at hcause
    obtain ⟨before, v, after, hgiven, hbefore, hv⟩ := hcause
    rw [← Except.error.inj h]
    exact Or.inr ⟨before, v, after, hgiven, fun u hu =>
      (Activation.exists_describeValue_iff hids u).mp (hbefore u hu), hv⟩
  · rename_i as has
    cases hr : ofActivated as with
    | error cause =>
      rw [hr] at h
      exact Or.inl ⟨cause, (Except.error.inj h).symm⟩
    | ok r =>
      rw [hr] at h
      cases h

/-- Activations that give no registry are an error of the configuration, or hold an integer with too
many digits. -/
theorem config_of_ofActivationValues {error : ActivationError}
    (h : ofActivationValues catalog given = .error error) :
    error = .longInteger ∨ ∃ cause, error = .config cause := by
  rcases ofActivationValues_eq_error hids h with hconfig | ⟨_, _, _, -, -, hv⟩
  · exact Or.inr hconfig
  · rcases Activation.describeValue_eq_error hids hv with hconfig | ⟨hlong, -⟩
    · exact Or.inr hconfig
    · exact Or.inl hlong

/-- The failure is that of an integer with too many digits exactly when the first activation that
activates no rule is invalid and holds one. -/
theorem ofActivationValues_eq_longInteger_iff :
    ofActivationValues catalog given = .error .longInteger ↔
      ∃ before v after, given = before ++ v :: after ∧ (∀ u ∈ before, Activable catalog u) ∧
        (¬ ∃ a, SaysActivation v a) ∧ v.isWritable = false := by
  constructor
  · intro h
    rcases ofActivationValues_eq_error hids h with ⟨_, hcause⟩ | ⟨before, v, after, hgiven, hbefore, hv⟩
    · cases hcause
    · exact ⟨before, v, after, hgiven, hbefore,
        (Activation.describeValue_eq_longInteger_iff hids v).mp hv⟩
  · rintro ⟨before, v, after, rfl, hbefore, hv⟩
    have hwalk : ((before ++ v :: after).map (Activation.describeValue catalog)).mapM id =
        .error .longInteger := by
      rw [List.mapM_map, mapM_eq_error_iff]
      exact ⟨before, v, after, rfl, fun u hu =>
        (Activation.exists_describeValue_iff hids u).mpr (hbefore u hu),
        (Activation.describeValue_eq_longInteger_iff hids v).mpr hv⟩
    unfold ofActivationValues collect
    rw [hwalk]

/-- Activations give a registry exactly when each of them is valid and names a key of the catalog, and
those of one key say the same. -/
theorem exists_ofActivationValues_iff :
    (∃ r, ofActivationValues catalog given = .ok r) ↔
      ∃ asked, List.Forall₂ SaysActivation given asked ∧
        (∀ a ∈ asked, ∃ e ∈ catalog.entries, e.key = a.key) ∧
        asked.Pairwise (SaysSame catalog.entries) := by
  have hknown : ∀ a, (∃ x, Activates catalog a x) ↔ ∃ e ∈ catalog.entries, e.key = a.key := by
    intro a
    constructor
    · rintro ⟨_, e, he, hkey, -⟩
      exact ⟨e, he, hkey⟩
    · rintro ⟨e, he, hkey⟩
      exact ⟨_, e, he, hkey, rfl⟩
  simp only [ofActivationValues_eq_ok_iff hids]
  constructor
  · rintro ⟨r, asked, as, hsays, hactivates, hr⟩
    refine ⟨asked, hsays, ?_, (exists_ofActivated_iff_saysSame hactivates).mp ⟨r, hr⟩⟩
    intro a ha
    exact (hknown a).mp ((exists_forall₂_iff _ asked).mp ⟨as, hactivates⟩ a ha)
  · rintro ⟨asked, hsays, hkeys, hsame⟩
    obtain ⟨as, hactivates⟩ := (exists_forall₂_iff (Activates catalog) asked).mpr fun a ha =>
      (hknown a).mpr (hkeys a ha)
    obtain ⟨r, hr⟩ := (exists_ofActivated_iff_saysSame hactivates).mpr hsame
    exact ⟨r, asked, as, hsays, hactivates, hr⟩

end Given

/-- A value says one activation at most. -/
theorem rightUnique_saysActivation : Relator.RightUnique SaysActivation := by
  intro v a b ha hb
  rw [← Activation.read_eq_sound_iff] at ha hb
  rw [ha] at hb
  exact Checked.sound.inj hb

/-- Given a catalog whose identifiers are not empty, activations make a registry exactly when each of
them is valid and names a key of the catalog, and any two of one key give one severity and options
that agree once they are frozen, those of the catalog standing in for none. All other activations
are an error of the configuration, except where the first that activates no rule is invalid and
holds an integer with too many digits: what is told then is the integer. In the registry an
identifier resolves to a key exactly when an activation names the key and the catalog has it under
that identifier, so no key has two; it has one rule for each key that is named; and each rule has the
severity and the frozen options of the last activation of its key, or the options of the catalog
where that gives none. -/
theorem ofActivationValues_translates {entries : List CatalogEntry} {catalog : Catalog}
    (hcatalog : Catalog.ofEntries entries = .ok catalog)
    (hids : ∀ e ∈ entries, e.externalId ≠ "") (given : List Value) :
    ((∃ r, ofActivationValues catalog given = .ok r) ↔
      ∃ asked, List.Forall₂ SaysActivation given asked ∧
        (∀ a ∈ asked, ∃ e ∈ entries, e.key = a.key) ∧ asked.Pairwise (SaysSame entries)) ∧
    (∀ error, ofActivationValues catalog given = .error error →
      error = .longInteger ∨ ∃ cause, error = .config cause) ∧
    (ofActivationValues catalog given = .error .longInteger ↔
      ∃ before v after, given = before ++ v :: after ∧
        (∀ u ∈ before, ∃ a, SaysActivation u a ∧ ∃ e ∈ entries, e.key = a.key) ∧
        (¬ ∃ a, SaysActivation v a) ∧ v.isWritable = false) ∧
    ∀ r asked, ofActivationValues catalog given = .ok r →
      List.Forall₂ SaysActivation given asked →
        (∀ externalId key, r.resolve externalId = some key ↔
          (∃ a ∈ asked, a.key = key) ∧
            ∃ e ∈ entries, e.key = key ∧ e.externalId = externalId) ∧
        (∀ i j key, r.resolve i = some key → r.resolve j = some key → i = j) ∧
        r.size = (asked.map Activation.key).dedup.length ∧
        ∀ d ∈ r.activeRules, ∃ a e,
          asked.reverse.find? (fun a => a.key = d.key) = some a ∧
          (e ∈ entries ∧ e.key = d.key ∧ e.externalId = d.externalId) ∧
          d.severity = a.severity ∧
          (∀ options, a.options = some options → d.options = Value.freezeMembers options) ∧
          (a.options = none → d.options = Value.freezeMembers e.defaults) := by
  obtain rfl := Catalog.entries_of_ofEntries hcatalog
  refine ⟨exists_ofActivationValues_iff hids, fun _ => config_of_ofActivationValues hids,
    ofActivationValues_eq_longInteger_iff hids, ?_⟩
  intro r asked h hasked
  obtain ⟨said, as, hsaid, hactivates, hr⟩ := (ofActivationValues_eq_ok_iff hids r).mp h
  obtain rfl := List.right_unique_forall₂' rightUnique_saysActivation hsaid hasked
  refine ⟨resolve_ofActivated_iff hactivates hr,
    fun _ _ _ => resolve_injective hactivates hr, size_ofActivated hactivates hr, ?_⟩
  intro d hd
  obtain ⟨a, ha, e, he, hekey, rfl⟩ := exists_last_activation hactivates hr hd
  refine ⟨a, e, ha, ⟨he, rfl, rfl⟩, rfl, ?_, ?_⟩
  · intro options hoptions
    show Value.freezeMembers (a.options.getD e.defaults) = _
    rw [hoptions, Option.getD_some]
  · intro hoptions
    show Value.freezeMembers (a.options.getD e.defaults) = _
    rw [hoptions, Option.getD_none]

/-- Two rules with limits, the first of which has one of its own. -/
def limits : List CatalogEntry :=
  [⟨⟨"css", "S1"⟩, "max", [("max", .int 3)]⟩, ⟨⟨"css", "S2"⟩, "min", [("min", .int 1)]⟩]

/-- The catalog of these rules. -/
def limitsCatalog : Catalog := ⟨limits, by decide, by decide⟩

/-- The first rule is activated twice, without options and with those of the catalog; the second one
is a warning and has no limit. -/
def limitsGiven : List Value :=
  [.record [("key", .text "css:S1")],
    .record [("key", .record [("repository", .text "css"), ("rule", .text "S1")]),
      ("options", .list [.list [.text "max", .int 3]])],
    .record [("key", .text "css:S2"), ("options", .record []), ("severity", .text "minor")]]

/-- What is asked for. -/
def limitsAsked : List Activation :=
  [⟨⟨"css", "S1"⟩, none, .error⟩, ⟨⟨"css", "S1"⟩, some [("max", .int 3)], .error⟩,
    ⟨⟨"css", "S2"⟩, some [], .warning⟩]

/-- The two limits that are given say the two that are asked for. -/
theorem saysActivation_limits : List.Forall₂ SaysActivation limitsGiven limitsAsked := by
  have hkey : ∀ rule, rule ≠ "" → SaysKey (.text ("css" ++ ":" ++ rule)) ⟨"css", rule⟩ := by
    intro rule hrule
    have hrepository : "css" ≠ "" := by decide
    have hcolon : ':' ∉ "css".toList := by decide
    exact Or.inl ⟨rfl, hrepository, hcolon, hrule⟩
  have hfirst : SaysActivation (.record [("key", .text "css:S1")]) ⟨⟨"css", "S1"⟩, none, .error⟩ :=
    ⟨_, rfl, ⟨_, rfl, hkey "S1" (by decide)⟩, Or.inl ⟨rfl, rfl⟩, Or.inl ⟨rfl, rfl⟩⟩
  have hsecond : SaysActivation
      (.record [("key", .record [("repository", .text "css"), ("rule", .text "S1")]),
        ("options", .list [.list [.text "max", .int 3]])])
      ⟨⟨"css", "S1"⟩, some [("max", .int 3)], .error⟩ := by
    refine ⟨_, rfl, ⟨_, rfl, Or.inr ⟨_, rfl, rfl, rfl⟩⟩, Or.inr ⟨_, rfl, ?_⟩, Or.inl ⟨rfl, rfl⟩⟩
    exact Or.inr (Or.inr ⟨_, _, Or.inl rfl, .cons (Or.inl rfl) .nil, rfl⟩)
  have hthird : SaysActivation
      (.record [("key", .text "css:S2"), ("options", .record []), ("severity", .text "minor")])
      ⟨⟨"css", "S2"⟩, some [], .warning⟩ :=
    ⟨_, rfl, ⟨_, rfl, hkey "S2" (by decide)⟩, Or.inr ⟨_, rfl, Or.inr (Or.inl ⟨_, rfl, rfl⟩)⟩,
      Or.inr ⟨_, rfl, _, rfl, by decide⟩⟩
  exact .cons hfirst (.cons hsecond (.cons hthird .nil))

/-- The two limits that are asked for say the same. -/
theorem pairwise_saysSame_limits : limitsAsked.Pairwise (SaysSame limits) := by
  have hdefaults : SaysSame limits ⟨⟨"css", "S1"⟩, none, .error⟩
      ⟨⟨"css", "S1"⟩, some [("max", .int 3)], .error⟩ := by
    intro _
    refine ⟨rfl, Or.inr ?_⟩
    intro e he hkey
    simp only [limits, List.mem_cons, List.not_mem_nil, or_false] at he
    rcases he with rfl | rfl
    · decide
    · exact absurd hkey (by decide)
  have hother : ∀ options, SaysSame limits ⟨⟨"css", "S1"⟩, options, .error⟩
      ⟨⟨"css", "S2"⟩, some [], .warning⟩ := by
    intro options hkey
    exact absurd hkey (show (⟨"css", "S1"⟩ : Key) ≠ ⟨"css", "S2"⟩ by decide)
  simp only [limitsAsked, List.pairwise_cons, List.mem_cons, List.not_mem_nil, or_false,
    forall_eq_or_imp, forall_eq, hdefaults, hother, true_and, false_implies, implies_true,
    List.Pairwise.nil]

/-- The three activations make two rules. -/
theorem ofActivationValues_translates_limits :
    Catalog.ofEntries limits = .ok limitsCatalog ∧ (∀ e ∈ limits, e.externalId ≠ "") ∧
      ∃ r, ofActivationValues limitsCatalog limitsGiven = .ok r ∧ r.size = 2 ∧
        r.resolve "min" = some ⟨"css", "S2"⟩ := by
  have hcatalog : Catalog.ofEntries limits = .ok limitsCatalog := rfl
  have hids : ∀ e ∈ limits, e.externalId ≠ "" := by decide
  obtain ⟨haccepted, -, -, htranslated⟩ := ofActivationValues_translates hcatalog hids limitsGiven
  obtain ⟨r, hr⟩ : ∃ r, ofActivationValues limitsCatalog limitsGiven = .ok r := by
    refine haccepted.mpr ⟨limitsAsked, saysActivation_limits, ?_, pairwise_saysSame_limits⟩
    decide
  obtain ⟨hresolve, -, hsize, -⟩ := htranslated r limitsAsked hr saysActivation_limits
  refine ⟨hcatalog, hids, r, hr, hsize, (hresolve _ _).mpr ⟨?_, ?_⟩⟩
  · exact ⟨⟨⟨"css", "S2"⟩, some [], .warning⟩, by simp [limitsAsked], rfl⟩
  · exact ⟨⟨⟨"css", "S2"⟩, "min", [("min", .int 1)]⟩, by simp [limits], rfl, rfl⟩

/-- An activation without a key that can be read, which holds an integer of 5001 digits. -/
def longActivation : Value :=
  .record [("key", .text "nocolon"), ("options", .record [("x", .int (Nat.pow 10 5000))])]

/-- An entry whose key has no colon says no activation. -/
theorem not_saysActivation_of_malformedKey {t : Value.Table} {s : String}
    (hkey : Members.get? t "key" = some (.text s)) (hcolon : ':' ∉ s.toList) (a : Activation) :
    ¬ SaysActivation (.record t) a := by
  rintro ⟨_, ht, ⟨v, hv, hsays⟩, -⟩
  obtain rfl := Value.record.inj ht
  obtain rfl := Option.some.inj (hkey.symm.trans hv)
  rcases hsays with ⟨htext, -⟩ | ⟨_, hrecord, -⟩
  · rw [Value.text.inj htext] at hcolon
    exact hcolon (by simp [Key.toText])
  · cases hrecord

/-- A malformed activation is not always an error of the configuration. -/
theorem long_integer_is_no_config_error :
    Catalog.ofEntries limits = .ok limitsCatalog ∧ (∀ e ∈ limits, e.externalId ≠ "") ∧
      (¬ ∃ a, SaysActivation longActivation a) ∧
      ofActivationValues limitsCatalog [longActivation] = .error .longInteger := by
  have hids : ∀ e ∈ limits, e.externalId ≠ "" := by decide
  have hnone : ¬ ∃ a, SaysActivation longActivation a := by
    rintro ⟨a, ha⟩
    exact not_saysActivation_of_malformedKey rfl (by decide) a ha
  have hlong : longActivation.isWritable = false := by decide +kernel
  refine ⟨rfl, hids, hnone, ?_⟩
  exact (ofActivationValues_eq_longInteger_iff hids).mpr
    ⟨[], longActivation, [], rfl, List.forall_mem_nil _, hnone, hlong⟩

end Registry

end LintGateway.Rule
