import LintGateway.Proofs.Json.SameDocument
import LintGateway.Proofs.LinterConfig
import LintGateway.Proofs.Rule.Activated
import LintGateway.Proofs.Text.Utf8

/-!
# The order of the descriptors

A list of descriptors is accepted when of any two with one identifier the earlier agrees with the
later. Agreement is symmetric and transitive, so this does not hang on the order, and neither does
the key of an identifier. What does hang on it is which of several descriptors that agree is kept:
the last one. The configuration is written from those that are kept, and agreement is coarser than
the written form, in which a truth value is not a number; so the bytes are the same as long as what
is kept under each identifier is written alike (`reordered`), and may differ otherwise.
-/

set_option autoImplicit false

namespace LintGateway.Rule

namespace Descriptor

/-- No record in the options repeats a name. -/
def IsWellNamed (d : Descriptor) : Prop := d.options.toValue.WellNamed

/-- Agreement of descriptors is symmetric where names are given once. -/
theorem agrees_symm {a b : Descriptor} (ha : a.IsWellNamed) (hb : b.IsWellNamed)
    (h : a.agrees b = true) : b.agrees a = true := by
  obtain ⟨hid, hkey, hoptions, hseverity⟩ := agrees_iff.mp h
  exact agrees_iff.mpr ⟨hid.symm, hkey.symm, Value.agrees_symm ha hb hoptions, hseverity.symm⟩

end Descriptor

namespace Registry

open Activation (Activated)

variable {ds order : List Descriptor}

/-! ## Which lists are accepted, and what is kept -/

/-- A list is accepted when its descriptors fit together, the earlier with the later. -/
theorem exists_ofDescriptors_iff :
    (∃ r, ofDescriptors ds = .ok r) ↔ ds.Pairwise Descriptor.Fits := by
  rw [← ofActivated_own, exists_ofActivated_iff (isConsistent_own ds), List.pairwise_map]
  simp only [Activated.fits_own_iff]

/-- The descriptor that is kept is one of the list, and every other one of its identifier in the
list agrees with it. -/
theorem get?_ofDescriptors {r : Registry} (h : ofDescriptors ds = .ok r) {externalId : String}
    {d : Descriptor} (hd : r.get? externalId = some d) :
    d ∈ ds ∧ d.externalId = externalId ∧
      ∀ e ∈ ds, e.externalId = externalId → e = d ∨ e.agrees d = true := by
  rw [get?_ofDescriptors_eq h] at hd
  have hmem : d ∈ ds := List.mem_reverse.mp (List.mem_of_find?_eq_some hd)
  have hid : d.externalId = externalId := by simpa using List.find?_some hd
  refine ⟨hmem, hid, ?_⟩
  intro e he heid
  have hfits := exists_ofDescriptors_iff.mp ⟨r, h⟩
  rcases eq_or_related_of_find?_reverse hfits hd he (by simpa using heid) with rfl | hfit
  · exact Or.inl rfl
  · exact Or.inr (hfit (heid.trans hid.symm))

/-! ## Another order -/

/-- Descriptors that fit in one order do in every other. -/
theorem pairwise_fits_of_perm (hperm : order.Perm ds)
    (hnames : ∀ d ∈ ds, d.IsWellNamed) (h : ds.Pairwise Descriptor.Fits) :
    order.Pairwise Descriptor.Fits := by
  let related (a b : Descriptor) : Prop := a.IsWellNamed → b.IsWellNamed → a.Fits b
  have hsymm : ∀ {a b}, related a b → related b a := by
    intro a b hab hb ha hid
    exact Descriptor.agrees_symm ha hb (hab ha hb hid.symm)
  have hrelated : order.Pairwise related :=
    (h.imp fun {a b} hab _ _ => hab).perm hperm.symm hsymm
  refine hrelated.imp_of_mem fun {a b} ha hb hab => ?_
  exact hab (hnames a (hperm.mem_iff.mp ha)) (hnames b (hperm.mem_iff.mp hb))

/-- Descriptors make a registry in one order exactly when they do in every other. -/
theorem exists_ofDescriptors_of_perm (hperm : order.Perm ds)
    (hnames : ∀ d ∈ ds, d.IsWellNamed) :
    (∃ r, ofDescriptors order = .ok r) ↔ ∃ r, ofDescriptors ds = .ok r := by
  have horder : ∀ d ∈ order, d.IsWellNamed := fun d hd => hnames d (hperm.mem_iff.mp hd)
  rw [exists_ofDescriptors_iff, exists_ofDescriptors_iff]
  exact ⟨pairwise_fits_of_perm hperm.symm horder, pairwise_fits_of_perm hperm hnames⟩

section Accepted

variable {r s : Registry} (hperm : order.Perm ds) (hr : ofDescriptors order = .ok r)
  (hs : ofDescriptors ds = .ok s)

include hperm hr hs

/-- An identifier is resolved alike in every order. -/
theorem resolve_of_perm (externalId : String) : r.resolve externalId = s.resolve externalId := by
  refine Option.ext fun key => ?_
  rw [resolve_ofDescriptors_iff hr, resolve_ofDescriptors_iff hs]
  simp only [hperm.mem_iff]

/-- Under one identifier the same descriptor is found in every order, or one that agrees with it. -/
theorem agrees_of_perm {externalId : String} {d e : Descriptor}
    (hd : r.get? externalId = some d) (he : s.get? externalId = some e) :
    d = e ∨ d.agrees e = true := by
  obtain ⟨hmem, hid, -⟩ := get?_ofDescriptors hr hd
  exact (get?_ofDescriptors hs he).2.2 d (hperm.mem_iff.mp hmem) hid

end Accepted

end Registry

end LintGateway.Rule

/-! ## The configuration of a registry -/

namespace LintGateway

/-- Objects whose members have the same names and are written alike are written alike. -/
theorem Json.write?_record_congr {ms ns : Value.Table}
    (h : List.Forall₂ (fun m n => m.1 = n.1 ∧ Json.write? m.2 = Json.write? n.2) ms ns) :
    Json.write? (.record ms) = Json.write? (.record ns) := by
  refine Option.ext fun t => ?_
  rw [Json.write?_record_eq_some_iff, Json.write?_record_eq_some_iff]
  refine exists_congr fun ts => and_congr_left fun _ => ⟨fun hms => ?_, fun hns => ?_⟩
  · refine forall₂_comp (List.Forall₂.flip h) hms ?_
    exact fun _ _ _ t hmn hmt => ⟨hmn.1.symm.trans hmt.1, hmn.2.symm.trans hmt.2⟩
  · refine forall₂_comp h hns ?_
    exact fun _ _ _ t hmn hnt => ⟨hmn.1.trans hnt.1, hmn.2.trans hnt.2⟩

namespace LinterConfig

open Rule (Descriptor Registry)

variable {r s : Registry}

/-- Registries that resolve alike configure the same names. -/
theorem names_entries_eq (h : ∀ externalId, r.resolve externalId = s.resolve externalId) :
    (ofDescriptors r.descriptors).entries.names = (ofDescriptors s.descriptors).entries.names := by
  have hmem : ∀ externalId, externalId ∈ (ofDescriptors r.descriptors).entries.names ↔
      externalId ∈ (ofDescriptors s.descriptors).entries.names := by
    intro externalId
    rw [mem_names_entries_iff r.externalIds_nodup, mem_names_entries_iff s.externalIds_nodup,
      ← Registry.exists_resolve_iff, ← Registry.exists_resolve_iff, h]
  have hperm := (List.perm_ext_iff_of_nodup (nodup_names_entries r.externalIds_nodup)
    (nodup_names_entries s.externalIds_nodup)).mpr hmem
  refine hperm.eq_of_pairwise ?_ (pairwise_names_entries r.externalIds_nodup)
    (pairwise_names_entries s.externalIds_nodup)
  intro a b _ _ hab hba
  exact absurd (String.lt_trans hab hba) (String.lt_irrefl _)

/-- An entry of the configuration is the settings of the descriptor found under its name. -/
theorem exists_get?_of_mem_entries {m : String × Value}
    (h : m ∈ (ofDescriptors r.descriptors).entries) :
    ∃ d, r.get? m.1 = some d ∧ (RuleSettings.ofDescriptor d).toValue = m.2 := by
  have hget := (Members.get?_eq_some_iff (nodup_names_entries r.externalIds_nodup) m.1 m.2).mpr h
  obtain ⟨d, hd, hid, hvalue⟩ := (get?_entries_iff r.externalIds_nodup m.1 m.2).mp hget
  exact ⟨d, (Registry.get?_eq_some_iff r m.1 d).mpr ⟨hd, hid⟩, hvalue⟩

/-- Registries that resolve the same identifiers and have descriptors that are written alike are
written as the same bytes. -/
theorem serialize?_eq (h : ∀ externalId, r.resolve externalId = s.resolve externalId)
    (hwritten : ∀ externalId d e, r.get? externalId = some d → s.get? externalId = some e →
      Json.write? (RuleSettings.ofDescriptor d).toValue =
        Json.write? (RuleSettings.ofDescriptor e).toValue) :
    (ofRegistry r).serialize? = (ofRegistry s).serialize? := by
  have hentries : List.Forall₂ (fun m n => m.1 = n.1 ∧ Json.write? m.2 = Json.write? n.2)
      (ofDescriptors r.descriptors).entries (ofDescriptors s.descriptors).entries := by
    refine forall₂_of_names_eq (names_entries_eq h) fun m hm n hn hname => ⟨hname, ?_⟩
    obtain ⟨d, hd, hdvalue⟩ := exists_get?_of_mem_entries hm
    obtain ⟨e, he, hevalue⟩ := exists_get?_of_mem_entries hn
    rw [← hdvalue, ← hevalue]
    exact hwritten m.1 d e hd (hname ▸ he)
  have hdocument : Json.write? (ofDescriptors r.descriptors).toDocument =
      Json.write? (ofDescriptors s.descriptors).toDocument := by
    exact Json.write?_record_congr (.cons ⟨rfl, Json.write?_record_congr hentries⟩ .nil)
  rw [serialize?_eq_map, serialize?_eq_map]
  unfold ofRegistry
  rw [Registry.activeRules_eq_descriptors, Registry.activeRules_eq_descriptors, hdocument]

/-- Descriptors in another order are accepted as before, and an identifier resolves to the same key
as before. What is kept under an identifier agrees with what was kept before; where it is also
written alike, the configuration is the same, byte for byte. -/
theorem reordered {ds order : List Descriptor} (hperm : order.Perm ds)
    (hnames : ∀ d ∈ ds, d.IsWellNamed) :
    ((∃ r, Registry.ofDescriptors order = .ok r) ↔ ∃ s, Registry.ofDescriptors ds = .ok s) ∧
      ∀ r s, Registry.ofDescriptors order = .ok r → Registry.ofDescriptors ds = .ok s →
        (∀ externalId, r.resolve externalId = s.resolve externalId) ∧
        (∀ externalId d e, r.get? externalId = some d → s.get? externalId = some e →
          d = e ∨ d.agrees e = true) ∧
        ((∀ externalId d e, r.get? externalId = some d → s.get? externalId = some e →
            Json.write? (RuleSettings.ofDescriptor d).toValue =
              Json.write? (RuleSettings.ofDescriptor e).toValue) →
          (ofRegistry r).serialize? = (ofRegistry s).serialize?) := by
  refine ⟨Registry.exists_ofDescriptors_of_perm hperm hnames, fun r s hr hs => ?_⟩
  have hresolve := Registry.resolve_of_perm hperm hr hs
  exact ⟨hresolve, fun _ _ _ hd he => Registry.agrees_of_perm hperm hr hs hd he,
    serialize?_eq hresolve⟩

/-- A rule that limits something to a given value. -/
def limit (v : Value) : Descriptor :=
  { externalId := "max", key := ⟨"css", "S1"⟩, options := [("max", v)], severity := .error }

/-- A limit of a well-named value is well named. -/
theorem isWellNamed_limit {v : Value} (h : v.WellNamed) : (limit v).IsWellNamed := by
  refine .tuple fun pair hpair => ?_
  rw [List.mem_singleton.mp hpair]
  refine .tuple fun w hw => ?_
  simp only [List.mem_cons, List.not_mem_nil, or_false] at hw
  rcases hw with rfl | rfl
  · exact .text _
  · exact h

/-- The two limits are a registry in either order. -/
theorem reordered_limit :
    [limit (.int 1), limit (.bool true)].Perm [limit (.bool true), limit (.int 1)] ∧
      (∀ d ∈ [limit (.bool true), limit (.int 1)], d.IsWellNamed) ∧
      ∃ r, Registry.ofDescriptors [limit (.int 1), limit (.bool true)] = .ok r := by
  have hperm : [limit (.int 1), limit (.bool true)].Perm [limit (.bool true), limit (.int 1)] :=
    .swap _ _ _
  have hnames : ∀ d ∈ [limit (.bool true), limit (.int 1)], d.IsWellNamed := by
    intro d hd
    simp only [List.mem_cons, List.not_mem_nil, or_false] at hd
    rcases hd with rfl | rfl
    · exact isWellNamed_limit (.bool true)
    · exact isWellNamed_limit (.int 1)
  exact ⟨hperm, hnames, (reordered hperm hnames).1.mpr ⟨⟨[limit (.int 1)], by simp⟩, rfl⟩⟩

def oneRule (v : Value) : Registry := ⟨[limit v], by simp⟩

/-- An object of one member is that member in braces. -/
theorem joinMembers_singleton (name : String) (cs : List Char) :
    Json.joinMembers [(name, cs)] =
      '\x7b' :: (Json.writeString name ++ ':' :: cs) ++ ['\x7d'] := by
  unfold Json.joinMembers Json.encloseMembers
  rw [List.mergeSort_singleton]
  simp [Json.joinMember]

/-- A registry of one rule is written with the text of its only option in it. -/
theorem serialize?_oneRule {v : Value} {cs : List Char} (h : Json.write? v = some cs) :
    (ofRegistry (oneRule v)).serialize? = some (String.ofList
      (Json.joinMembers [("rules", Json.joinMembers [("max",
        Json.joinItems ["true".toList, Json.joinMembers [("max", cs)]])])] ++ ['\n'])).toUTF8 := by
  have hentries : (ofDescriptors (oneRule v).descriptors).entries =
      [("max", .list [.bool true, .record [("max", v)]])] := by
    rw [entries_ofDescriptors (oneRule v).externalIds_nodup]
    unfold sorted oneRule
    rw [List.mergeSort_singleton]
    rfl
  have hdocument : Json.write? (ofDescriptors (oneRule v).descriptors).toDocument =
      some (Json.joinMembers [("rules", Json.joinMembers [("max",
        Json.joinItems ["true".toList, Json.joinMembers [("max", cs)]])])]) := by
    unfold toDocument
    rw [hentries]
    have hoptions : Json.write? (.record [("max", v)]) = some (Json.joinMembers [("max", cs)]) :=
      Json.write?_record_eq_some_iff.mpr ⟨_, .cons ⟨rfl, h⟩ .nil, rfl⟩
    have hentry : Json.write? (.list [.bool true, .record [("max", v)]]) =
        some (Json.joinItems ["true".toList, Json.joinMembers [("max", cs)]]) :=
      (Json.write?_eq_some_iff_of_items? rfl).mpr ⟨_, .cons rfl (.cons hoptions .nil), rfl⟩
    have hrules : Json.write? (.record [("max", .list [.bool true, .record [("max", v)]])]) =
        some (Json.joinMembers
          [("max", Json.joinItems ["true".toList, Json.joinMembers [("max", cs)]])]) :=
      Json.write?_record_eq_some_iff.mpr ⟨_, .cons ⟨rfl, hentry⟩ .nil, rfl⟩
    exact Json.write?_record_eq_some_iff.mpr ⟨_, .cons ⟨rfl, hrules⟩ .nil, rfl⟩
  rw [serialize?_eq_map]
  unfold ofRegistry
  rw [Registry.activeRules_eq_descriptors, hdocument]
  rfl

/-- A truth value agrees with a number and is not written like one: the last one given counts. -/
theorem limit_orders_differ :
    ∃ r s, Registry.ofDescriptors [limit (.bool true), limit (.int 1)] = .ok r ∧
      Registry.ofDescriptors [limit (.int 1), limit (.bool true)] = .ok s ∧
      (ofRegistry r).serialize? ≠ (ofRegistry s).serialize? := by
  refine ⟨oneRule (.int 1), oneRule (.bool true), rfl, rfl, ?_⟩
  have hone : Json.write? (.int 1) = some ['1'] := Json.write?_int (by decide +kernel)
  have htrue : Json.write? (.bool true) = some ['t', 'r', 'u', 'e'] := rfl
  rw [serialize?_oneRule hone, serialize?_oneRule htrue]
  intro h
  have hdecoded := congrArg Text.decode (Option.some.inj h)
  rw [Text.decode_toUTF8, Text.decode_toUTF8] at hdecoded
  have hlength := congrArg List.length (String.ofList_injective (Except.ok.inj hdecoded))
  simp [joinMembers_singleton, Json.joinItems] at hlength

end LinterConfig

end LintGateway
