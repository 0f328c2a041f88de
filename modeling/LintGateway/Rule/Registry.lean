import LintGateway.ConfigError
import LintGateway.Rule.Descriptor

/-!
# The rules of a run

A registry is the set of rules active in one run, one descriptor for each identifier of the linter.
Giving an identifier again is allowed when the descriptors agree; the later one is kept, in the
place of the earlier one.
-/

set_option autoImplicit false

namespace LintGateway.Rule

/-- A rule identifier that no active rule has. -/
structure Unknown where
  externalId : String
deriving DecidableEq, Repr

/-- The sentence that names the identifier. -/
def Unknown.message (u : Unknown) : String :=
  "Unknown stylelint rule or rule not enabled: " ++ u.externalId

/-- Active rules, no two of the same identifier. -/
structure Registry where
  descriptors : List Descriptor
  externalIds_nodup : (descriptors.map Descriptor.externalId).Nodup

namespace Registry

/-- The registry without rules. -/
def empty : Registry := ⟨[], by simp⟩

/-- The descriptors with `d` in the place of the one with its identifier, at the end if there is
none. -/
def set (d : Descriptor) : List Descriptor → List Descriptor
  | [] => [d]
  | e :: es => if e.externalId = d.externalId then d :: es else e :: set d es

/-- Setting a descriptor adds its identifier at the end, unless it is there already. -/
theorem externalIds_set (d : Descriptor) (es : List Descriptor) :
    (set d es).map Descriptor.externalId =
      if d.externalId ∈ es.map Descriptor.externalId then es.map Descriptor.externalId
      else es.map Descriptor.externalId ++ [d.externalId] := by
  induction es with
  | nil => simp [set]
  | cons e es ih =>
    by_cases he : e.externalId = d.externalId
    · simp [set, he]
    · by_cases hd : d.externalId ∈ es.map Descriptor.externalId <;>
        simp_all [set, Ne.symm he]

/-- Setting a descriptor leaves every identifier there once. -/
theorem nodup_set (d : Descriptor) {es : List Descriptor}
    (h : (es.map Descriptor.externalId).Nodup) :
    ((set d es).map Descriptor.externalId).Nodup := by
  rw [externalIds_set]
  split
  · exact h
  · rename_i hd
    rw [List.nodup_append]
    refine ⟨h, by simp, ?_⟩
    intro a ha b hb
    simp only [List.mem_singleton] at hb
    rintro rfl
    exact hd (hb ▸ ha)

/-- The descriptor of an identifier. -/
def get? (r : Registry) (externalId : String) : Option Descriptor :=
  r.descriptors.find? fun d => d.externalId = externalId

/-- Adds a descriptor, unless one of its identifier says something else. -/
def add (r : Registry) (d : Descriptor) : Except ConfigError Registry :=
  match r.get? d.externalId with
  | some e =>
    if e.agrees d then .ok ⟨set d r.descriptors, nodup_set d r.externalIds_nodup⟩
    else .error (.boundTwice d.externalId e.key d.key)
  | none => .ok ⟨set d r.descriptors, nodup_set d r.externalIds_nodup⟩

/-- The registry of a list of descriptors. -/
def ofDescriptors (ds : List Descriptor) : Except ConfigError Registry := ds.foldlM add empty

/-- The host's key for an identifier of the linter, if the rule is active. -/
def resolve (r : Registry) (externalId : String) : Option Key :=
  (r.get? externalId).map Descriptor.key

/-- The host's key for an identifier of the linter, or the error that names it. -/
def require (r : Registry) (externalId : String) : Except Unknown Key :=
  match r.resolve externalId with
  | some key => .ok key
  | none => .error ⟨externalId⟩

/-- The descriptors of a list that agree with none before them; `kept` holds those kept so far. -/
def distinctAfter (kept : List Descriptor) : List Descriptor → List Descriptor
  | [] => []
  | d :: ds =>
    if kept.any fun e => e.agrees d then distinctAfter kept ds
    else d :: distinctAfter (d :: kept) ds

/-- Descriptors of different identifiers are all kept. -/
theorem distinctAfter_eq_self (kept ds : List Descriptor)
    (h : ((kept ++ ds).map Descriptor.externalId).Nodup) : distinctAfter kept ds = ds := by
  induction ds generalizing kept with
  | nil => rfl
  | cons d ds ih =>
    have hnone : (kept.any fun e => e.agrees d) = false := by
      rw [List.any_eq_false]
      intro e he hagrees
      rw [List.map_append, List.nodup_append] at h
      refine h.2.2 e.externalId (List.mem_map.mpr ⟨e, he, rfl⟩) d.externalId (by simp) ?_
      exact Descriptor.externalId_eq_of_agrees hagrees
    have hrest : ((d :: kept ++ ds).map Descriptor.externalId).Nodup := by
      refine (List.Perm.nodup_iff ?_).mp h
      exact List.Perm.map _ List.perm_middle
    simp only [distinctAfter, hnone, Bool.false_eq_true, if_false, ih (d :: kept) hrest]

/-- The set of active rules: of descriptors that agree there is one. -/
def activeRules (r : Registry) : List Descriptor := distinctAfter [] r.descriptors

/-- The set of active rules holds what the identifiers lead to: no two of them agree. -/
theorem activeRules_eq_descriptors (r : Registry) : r.activeRules = r.descriptors :=
  distinctAfter_eq_self [] r.descriptors (by simpa using r.externalIds_nodup)

/-- How many rules are active. -/
def size (r : Registry) : Nat := r.activeRules.length

/-- The active rules in the order of their identifiers by code point. -/
def sorted (r : Registry) : List Descriptor :=
  r.activeRules.mergeSort fun a b => a.externalId ≤ b.externalId

end Registry

end LintGateway.Rule
