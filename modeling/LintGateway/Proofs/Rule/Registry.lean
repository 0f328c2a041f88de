import LintGateway.Proofs.Traversal
import LintGateway.Proofs.Value.Agreement
import LintGateway.Rule.Registry
import Mathlib.Data.List.Induction

/-!
# What a registry resolves

A registry is made by adding descriptors one after the other, so what it finds under an identifier is
followed along that list, from its end: the last descriptor of an identifier is the one that is
found. Since a descriptor is only put in the place of one that says the same, all descriptors of an
identifier in the list have the key that the registry resolves it to.
-/

set_option autoImplicit false

namespace LintGateway.Rule

namespace Descriptor

/-- Descriptors agree when their parts do, the options by the equality of values. -/
theorem agrees_iff {a b : Descriptor} : a.agrees b = true ↔
    a.externalId = b.externalId ∧ a.key = b.key ∧
      a.options.toValue.agrees b.options.toValue = true ∧ a.severity = b.severity := by
  simp only [agrees, Options.agrees, Bool.and_eq_true, decide_eq_true_eq, and_assoc]

/-- Descriptors that agree with one descriptor in a row agree. -/
theorem agrees_trans {a b c : Descriptor} (h : a.agrees b = true) (h' : b.agrees c = true) :
    a.agrees c = true := by
  obtain ⟨hid, hkey, hoptions, hseverity⟩ := agrees_iff.mp h
  obtain ⟨hid', hkey', hoptions', hseverity'⟩ := agrees_iff.mp h'
  exact agrees_iff.mpr ⟨hid.trans hid', hkey.trans hkey', Value.agrees_trans hoptions hoptions',
    hseverity.trans hseverity'⟩

/-- Two descriptors fit together: when they have one identifier the first agrees with the second. -/
def Fits (a b : Descriptor) : Prop := a.externalId = b.externalId → a.agrees b = true

end Descriptor

namespace Registry

/-- The descriptor of an identifier is the one that the registry holds. -/
theorem get?_eq_some_iff (r : Registry) (externalId : String) (d : Descriptor) :
    r.get? externalId = some d ↔ d ∈ r.descriptors ∧ d.externalId = externalId :=
  find?_eq_some_iff_of_nodup r.externalIds_nodup

/-- An identifier is resolved to the key of the descriptor that has it. -/
theorem resolve_eq_some_iff (r : Registry) (externalId : String) (key : Key) :
    r.resolve externalId = some key ↔
      ∃ d ∈ r.descriptors, d.externalId = externalId ∧ d.key = key := by
  unfold resolve
  rw [Option.map_eq_some_iff]
  simp only [get?_eq_some_iff, and_assoc]

/-! ## Adding one descriptor -/

/-- A descriptor that has been set is found under its identifier, and every other one as before. -/
theorem find?_set (d : Descriptor) (es : List Descriptor) (externalId : String) :
    (set d es).find? (fun e => e.externalId = externalId) =
      if d.externalId = externalId then some d
      else es.find? fun e => e.externalId = externalId := by
  induction es with
  | nil =>
    by_cases hd : d.externalId = externalId
    · simp [set, hd]
    · simp [set, hd]
  | cons e es ih =>
    unfold set
    by_cases he : e.externalId = d.externalId
    · rw [if_pos he, List.find?_cons, List.find?_cons, he]
      by_cases hd : d.externalId = externalId <;> simp [hd]
    · rw [if_neg he, List.find?_cons, List.find?_cons, ih]
      by_cases hd : d.externalId = externalId
      · have hother : e.externalId ≠ externalId := fun h => he (h.trans hd.symm)
        simp [hd, hother]
      · simp [hd]

/-- Adding a descriptor sets it, and what it is set in the place of says the same. -/
theorem add_eq_ok {r s : Registry} {d : Descriptor} (h : r.add d = .ok s) :
    s.descriptors = set d r.descriptors ∧
      ∀ e, r.get? d.externalId = some e → e.agrees d = true := by
  unfold add at h
  cases hget : r.get? d.externalId with
  | none =>
    rw [hget] at h
    obtain rfl := Except.ok.inj h
    exact ⟨rfl, fun e he => by cases he⟩
  | some e =>
    rw [hget] at h
    by_cases hagrees : e.agrees d = true
    · simp only [hagrees, if_true, Except.ok.injEq] at h
      obtain rfl := h
      refine ⟨rfl, ?_⟩
      intro f hf
      rw [← Option.some.inj hf]
      exact hagrees
    · simp only [hagrees, Bool.false_eq_true, if_false] at h
      cases h

/-- After adding a descriptor it is found under its identifier, and every other as before. -/
theorem get?_of_add {r s : Registry} {d : Descriptor} (h : r.add d = .ok s)
    (externalId : String) :
    s.get? externalId = if d.externalId = externalId then some d else r.get? externalId := by
  unfold get?
  rw [(add_eq_ok h).1, find?_set]

/-- After adding a descriptor its identifier resolves to its key, and every other as before. -/
theorem resolve_of_add {r s : Registry} {d : Descriptor} (h : r.add d = .ok s)
    (externalId : String) :
    s.resolve externalId =
      if d.externalId = externalId then some d.key else r.resolve externalId := by
  unfold resolve
  rw [get?_of_add h]
  by_cases hd : d.externalId = externalId
  · rw [if_pos hd, if_pos hd]
    rfl
  · rw [if_neg hd, if_neg hd]

/-- What an identifier resolved to before a descriptor of it was added is the key of that one. -/
theorem key_of_add {r s : Registry} {d : Descriptor} {key : Key} (h : r.add d = .ok s)
    (hkey : r.resolve d.externalId = some key) : d.key = key := by
  obtain ⟨e, he, rfl⟩ := Option.map_eq_some_iff.mp hkey
  exact (Descriptor.key_eq_of_agrees ((add_eq_ok h).2 e he)).symm

/-! ## Adding a list of descriptors -/

/-- A registry of a list is that of the list without its last descriptor, with that one added. -/
theorem ofDescriptors_append_singleton (ds : List Descriptor) (d : Descriptor) :
    ofDescriptors (ds ++ [d]) = (ofDescriptors ds >>= fun r => r.add d) := by
  unfold ofDescriptors
  rw [List.foldlM_append]
  refine congrArg (ds.foldlM add empty >>= ·) ?_
  funext r
  simp

/-- An identifier resolves to a key exactly when a descriptor in the list gives it that key. -/
theorem resolve_ofDescriptors_iff {ds : List Descriptor} {r : Registry}
    (h : ofDescriptors ds = .ok r) (externalId : String) (key : Key) :
    r.resolve externalId = some key ↔ ∃ d ∈ ds, d.externalId = externalId ∧ d.key = key := by
  induction ds using List.reverseRecOn generalizing r with
  | nil =>
    obtain rfl := Except.ok.inj h
    simp [resolve, get?, empty]
  | append_singleton ds d ih =>
    rw [ofDescriptors_append_singleton] at h
    cases hds : ofDescriptors ds with
    | error e =>
      rw [hds] at h
      cases h
    | ok r₀ =>
      rw [hds] at h
      have hadd : r₀.add d = .ok r := h
      rw [resolve_of_add hadd]
      by_cases hd : d.externalId = externalId
      · rw [if_pos hd]
        constructor
        · intro hkey
          exact ⟨d, by simp, hd, Option.some.inj hkey⟩
        · rintro ⟨e, he, heid, hekey⟩
          rw [List.mem_append, List.mem_singleton] at he
          rcases he with he | rfl
          · -- an earlier descriptor of the identifier: the one added says the same
            have hbefore : r₀.resolve d.externalId = some key := by
              rw [hd]
              exact (ih hds).mpr ⟨e, he, heid, hekey⟩
            rw [key_of_add hadd hbefore]
          · rw [hekey]
      · rw [if_neg hd, ih hds]
        constructor
        · rintro ⟨e, he, hsays⟩
          exact ⟨e, List.mem_append_left _ he, hsays⟩
        · rintro ⟨e, he, heid, hekey⟩
          rw [List.mem_append, List.mem_singleton] at he
          rcases he with he | rfl
          · exact ⟨e, he, heid, hekey⟩
          · exact absurd heid hd

/-- An identifier resolves exactly when an active rule has it. -/
theorem exists_resolve_iff (r : Registry) (externalId : String) :
    (∃ key, r.resolve externalId = some key) ↔
      externalId ∈ r.descriptors.map Descriptor.externalId := by
  simp only [resolve_eq_some_iff, List.mem_map]
  constructor
  · rintro ⟨_, d, hd, hid, -⟩
    exact ⟨d, hd, hid⟩
  · rintro ⟨d, hd, hid⟩
    exact ⟨d.key, d, hd, hid, rfl⟩

/-- A key is resolved to exactly when an active rule has it. -/
theorem exists_resolve_eq_iff (r : Registry) (key : Key) :
    (∃ externalId, r.resolve externalId = some key) ↔ key ∈ r.descriptors.map Descriptor.key := by
  simp only [resolve_eq_some_iff, List.mem_map]
  constructor
  · rintro ⟨_, d, hd, -, hkey⟩
    exact ⟨d, hd, hkey⟩
  · rintro ⟨d, hd, hkey⟩
    exact ⟨d.externalId, d, hd, rfl, hkey⟩

end Registry

end LintGateway.Rule
