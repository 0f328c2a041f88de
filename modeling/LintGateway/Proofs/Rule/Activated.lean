import LintGateway.Proofs.Rule.Registry
import LintGateway.Rule.Activation

/-!
# The registry of activated rules

A rule may be activated again when the activation says the same, and the last one is kept. One that
repeats the standing options of the catalog is not looked at again, so nothing is put in the place of
the earlier one; as long as the two have one descriptor this makes no difference, and the registry
holds the descriptor of the last activated rule of each identifier (`get?_ofActivated`). Descriptors
that are given by themselves are the case in which no rule takes standing options.
-/

set_option autoImplicit false

namespace LintGateway.Rule

namespace Activation.Activated

variable {a b c : Activated}

/-- After an activated rule another one of its identifier is admitted: it repeats the first, or its
descriptor agrees with that of the first. -/
def Admits (a b : Activated) : Prop :=
  a.repeats b = true ∨ a.descriptor.agrees b.descriptor = true

/-- Two activated rules fit together: when they have one identifier the first admits the second. -/
def Fits (a b : Activated) : Prop :=
  a.descriptor.externalId = b.descriptor.externalId → a.Admits b

/-- A descriptor repeats another when both stand as in the catalog with one severity. -/
theorem repeats_iff : a.repeats b = true ↔
    a.standing = true ∧ b.standing = true ∧ a.descriptor.severity = b.descriptor.severity := by
  simp only [repeats, Bool.and_eq_true, decide_eq_true_eq, and_assoc]

/-- What repeats a descriptor that repeats a third repeats the third. -/
theorem repeats_trans (h : a.repeats b = true) (h' : b.repeats c = true) : a.repeats c = true := by
  obtain ⟨ha, -, hseverity⟩ := repeats_iff.mp h
  obtain ⟨-, hc, hseverity'⟩ := repeats_iff.mp h'
  exact repeats_iff.mpr ⟨ha, hc, hseverity.trans hseverity'⟩

/-- What admits a descriptor that admits a third admits the third. -/
theorem Admits.trans (hab : a.Admits b) (hbc : b.Admits c)
    (hsame : a.repeats b = true → a.descriptor = b.descriptor)
    (hsame' : b.repeats c = true → b.descriptor = c.descriptor) : a.Admits c := by
  rcases hab with hab | hab <;> rcases hbc with hbc | hbc
  · exact Or.inl (repeats_trans hab hbc)
  · exact Or.inr (hsame hab ▸ hbc)
  · exact Or.inr (hsame' hbc ▸ hab)
  · exact Or.inr (Descriptor.agrees_trans hab hbc)

/-- A rule with options of its own. -/
def own (d : Descriptor) : Activated := { descriptor := d, standing := false }

/-- Descriptors of one's own fit as the descriptors do. -/
theorem fits_own_iff {d e : Descriptor} : (own d).Fits (own e) ↔ d.Fits e := by
  have hrepeats : ¬ (own d).repeats (own e) = true := fun h =>
    Bool.false_ne_true (repeats_iff.mp h).1
  unfold Fits Admits Descriptor.Fits
  rw [or_iff_right hrepeats]
  rfl

end Activation.Activated

namespace Registry

open Activation (Activated)

variable {as : List Activated}

/-! ## One more activated rule -/

/-- A descriptor added last is newly said unless it repeats the last one of its identifier. -/
theorem newlySaid_append_singleton (before as : List Activated) (a : Activated) :
    newlySaid before (as ++ [a]) = newlySaid before as ++
      if (findActivated a.descriptor.externalId (as.reverse ++ before)).any fun b => b.repeats a
      then [] else [a.descriptor] := by
  induction as generalizing before with
  | nil =>
    simp only [newlySaid, List.nil_append, List.reverse_nil]
    rfl
  | cons x as ih =>
    have hbefore : (x :: as).reverse ++ before = as.reverse ++ x :: before := by simp
    rw [hbefore, List.cons_append]
    unfold newlySaid
    by_cases hx : (findActivated x.descriptor.externalId before).any fun b => b.repeats x
    · simp only [hx, if_true, ih]
    · simp only [hx, Bool.false_eq_true, if_false, ih, List.cons_append]

/-- A last activated rule is added, unless the one of its identifier before it says the same with
standing options. -/
theorem ofActivated_append_singleton (as : List Activated) (a : Activated) :
    ofActivated (as ++ [a]) =
      if (findActivated a.descriptor.externalId as.reverse).any fun b => b.repeats a
      then ofActivated as else ofActivated as >>= fun r => r.add a.descriptor := by
  unfold ofActivated
  rw [newlySaid_append_singleton, List.append_nil]
  split
  · rw [List.append_nil]
  · rw [ofDescriptors_append_singleton]

/-- The last descriptor of an identifier is the one added last if it has that identifier. -/
theorem findActivated_reverse_append_singleton (as : List Activated) (a : Activated)
    (externalId : String) :
    findActivated externalId (as ++ [a]).reverse =
      if a.descriptor.externalId = externalId then some a
      else findActivated externalId as.reverse := by
  have hreverse : (as ++ [a]).reverse = a :: as.reverse := by simp
  rw [hreverse]
  unfold findActivated
  rw [List.find?_cons]
  by_cases h : a.descriptor.externalId = externalId <;> simp [h]

/-- What is found under an identifier is one of the descriptors and has that identifier. -/
theorem mem_of_findActivated_reverse {externalId : String} {a : Activated}
    (h : findActivated externalId as.reverse = some a) :
    a ∈ as ∧ a.descriptor.externalId = externalId :=
  ⟨List.mem_reverse.mp (List.mem_of_find?_eq_some h), by simpa using List.find?_some h⟩

/-! ## All activated rules -/

/-- Activated rules that repeat one another under one identifier have one descriptor. So it is when
the standing options of an identifier are always the same. -/
def IsConsistent (as : List Activated) : Prop :=
  ∀ a ∈ as, ∀ b ∈ as, a.descriptor.externalId = b.descriptor.externalId →
    a.repeats b = true → a.descriptor = b.descriptor

/-- What comes first of consistent descriptors is consistent. -/
theorem IsConsistent.of_append {bs : List Activated} (h : IsConsistent (as ++ bs)) :
    IsConsistent as := fun a ha b hb =>
  h a (List.mem_append_left bs ha) b (List.mem_append_left bs hb)

/-- The activated rule that was last said of an identifier and is repeated by another one of it has
the descriptor of that. -/
theorem exists_findActivated_of_said {a : Activated} (hconsistent : IsConsistent (as ++ [a]))
    (h : ((findActivated a.descriptor.externalId as.reverse).any fun b => b.repeats a) = true) :
    ∃ b, findActivated a.descriptor.externalId as.reverse = some b ∧ b.repeats a = true ∧
      b.descriptor = a.descriptor := by
  obtain ⟨b, hb, hrepeats⟩ := (Option.any_eq_true _ _).mp h
  obtain ⟨hmem, hid⟩ := mem_of_findActivated_reverse hb
  exact ⟨b, hb, hrepeats, hconsistent b (List.mem_append_left _ hmem) a (by simp) hid hrepeats⟩

/-- What a registry finds under an identifier is the descriptor of the last activated rule of it. -/
theorem get?_ofActivated {r : Registry} (hconsistent : IsConsistent as)
    (h : ofActivated as = .ok r) (externalId : String) :
    r.get? externalId = (findActivated externalId as.reverse).map Activated.descriptor := by
  induction as using List.reverseRecOn generalizing r with
  | nil =>
    obtain rfl := Except.ok.inj h
    rfl
  | append_singleton as a ih =>
    have hearlier := hconsistent.of_append
    rw [findActivated_reverse_append_singleton]
    rw [ofActivated_append_singleton] at h
    by_cases hsaid : (findActivated a.descriptor.externalId as.reverse).any fun b => b.repeats a
    · -- nothing is added: what is there for the identifier has the same descriptor
      rw [if_pos hsaid] at h
      rw [ih hearlier h]
      by_cases ha : a.descriptor.externalId = externalId
      · obtain ⟨b, hb, -, hdescriptor⟩ := exists_findActivated_of_said hconsistent hsaid
        rw [if_pos ha, ← ha, hb, Option.map_some, Option.map_some, hdescriptor]
      · rw [if_neg ha]
    · rw [if_neg hsaid, bind_eq_ok_iff] at h
      obtain ⟨before, hbefore, hadd⟩ := h
      rw [get?_of_add hadd, ih hearlier hbefore]
      by_cases ha : a.descriptor.externalId = externalId
      · rw [if_pos ha, if_pos ha]
        rfl
      · rw [if_neg ha, if_neg ha]

/-- Under the identifier of a descriptor one is found. -/
theorem exists_findActivated_of_mem {a : Activated} (ha : a ∈ as) :
    ∃ b, findActivated a.descriptor.externalId as.reverse = some b := by
  unfold findActivated
  rw [← Option.isSome_iff_exists, List.find?_isSome]
  exact ⟨a, List.mem_reverse.mpr ha, by simp⟩

/-- A last activated rule is accepted exactly when the one of its identifier before it admits it. -/
theorem exists_ofActivated_append_singleton_iff {a : Activated}
    (hconsistent : IsConsistent as) :
    (∃ r, ofActivated (as ++ [a]) = .ok r) ↔
      (∃ r, ofActivated as = .ok r) ∧
        ∀ b, findActivated a.descriptor.externalId as.reverse = some b → b.Admits a := by
  rw [ofActivated_append_singleton]
  by_cases hsaid : (findActivated a.descriptor.externalId as.reverse).any fun b => b.repeats a
  · -- what repeats the last one of its identifier is passed over
    rw [if_pos hsaid]
    obtain ⟨b, hb, hrepeats⟩ := (Option.any_eq_true _ _).mp hsaid
    refine ⟨fun h => ⟨h, fun c hc => ?_⟩, And.left⟩
    rw [hb, Option.some.injEq] at hc
    exact Or.inl (hc ▸ hrepeats)
  · rw [if_neg hsaid]
    constructor
    · rintro ⟨r, h⟩
      obtain ⟨before, hbefore, hadd⟩ := (bind_eq_ok_iff _ _ _).mp h
      refine ⟨⟨before, hbefore⟩, fun b hb => Or.inr ?_⟩
      refine (add_eq_ok hadd).2 b.descriptor ?_
      rw [get?_ofActivated hconsistent hbefore, hb]
      rfl
    · rintro ⟨⟨before, hbefore⟩, hadmits⟩
      rw [hbefore]
      show ∃ r, before.add a.descriptor = .ok r
      unfold add
      rw [get?_ofActivated hconsistent hbefore]
      cases hb : findActivated a.descriptor.externalId as.reverse with
      | none => exact ⟨_, rfl⟩
      | some b =>
        have hagrees : b.descriptor.agrees a.descriptor = true := by
          refine (hadmits b hb).resolve_left fun hrepeats => hsaid ?_
          exact (Option.any_eq_true _ _).mpr ⟨b, hb, hrepeats⟩
        rw [Option.map_some]
        simp only [hagrees, if_true]
        exact ⟨_, rfl⟩

/-- Activated rules are accepted when they fit together, the earlier with the later. -/
theorem exists_ofActivated_iff (hconsistent : IsConsistent as) :
    (∃ r, ofActivated as = .ok r) ↔ as.Pairwise Activated.Fits := by
  induction as using List.reverseRecOn with
  | nil => exact ⟨fun _ => .nil, fun _ => ⟨empty, rfl⟩⟩
  | append_singleton as a ih =>
    have hearlier := hconsistent.of_append
    rw [exists_ofActivated_append_singleton_iff hearlier, ih hearlier, List.pairwise_append]
    constructor
    · rintro ⟨hfits, hadmits⟩
      refine ⟨hfits, List.pairwise_singleton _ _, ?_⟩
      intro b hb c hc hid
      obtain rfl := List.mem_singleton.mp hc
      obtain ⟨last, hlast⟩ := exists_findActivated_of_mem hb
      obtain ⟨hmem, hlastid⟩ := mem_of_findActivated_reverse hlast
      have hadmitted : last.Admits c := hadmits last (hid ▸ hlast)
      rcases eq_or_related_of_find?_reverse hfits hlast hb (by simp) with rfl | hblast
      · exact hadmitted
      · refine (hblast hlastid.symm).trans hadmitted ?_ ?_
        · exact hconsistent b (List.mem_append_left _ hb) last (List.mem_append_left _ hmem)
            hlastid.symm
        · exact hconsistent last (List.mem_append_left _ hmem) c (by simp) (hlastid.trans hid)
    · rintro ⟨hfits, -, hlast⟩
      refine ⟨hfits, fun b hb => ?_⟩
      obtain ⟨hmem, hid⟩ := mem_of_findActivated_reverse hb
      exact hlast b hmem a (List.mem_singleton_self a) hid

/-! ## Descriptors by themselves -/

/-- All descriptors of one's own are newly said. -/
theorem newlySaid_own (before : List Activated) (ds : List Descriptor) :
    newlySaid before (ds.map Activated.own) = ds := by
  induction ds generalizing before with
  | nil => rfl
  | cons d ds ih =>
    have hnone : ¬ ((findActivated (Activated.own d).descriptor.externalId before).any
        fun b => b.repeats (.own d)) = true := by
      intro hsaid
      obtain ⟨b, -, hrepeats⟩ := (Option.any_eq_true _ _).mp hsaid
      exact Bool.false_ne_true (Activated.repeats_iff.mp hrepeats).2.1
    show (if _ then _ else _) = _
    rw [if_neg hnone, ih]
    rfl

/-- Descriptors make the registry that they make when none of them takes standing options. -/
theorem ofActivated_own (ds : List Descriptor) :
    ofActivated (ds.map Activated.own) = ofDescriptors ds := by
  unfold ofActivated
  rw [newlySaid_own]

/-- Descriptors of one's own are consistent. -/
theorem isConsistent_own (ds : List Descriptor) : IsConsistent (ds.map Activated.own) := by
  intro a ha b _ _ hrepeats
  obtain ⟨d, -, rfl⟩ := List.mem_map.mp ha
  exact absurd (Activated.repeats_iff.mp hrepeats).1 Bool.false_ne_true

/-- A registry finds under an identifier the last of its descriptors that has it. -/
theorem get?_ofDescriptors_eq {ds : List Descriptor} {r : Registry} (h : ofDescriptors ds = .ok r)
    (externalId : String) :
    r.get? externalId = ds.reverse.find? fun d => d.externalId = externalId := by
  rw [← ofActivated_own] at h
  rw [get?_ofActivated (isConsistent_own ds) h, ← List.map_reverse]
  unfold findActivated
  rw [List.find?_map, Option.map_map]
  exact Option.map_id'

end Registry

end LintGateway.Rule
