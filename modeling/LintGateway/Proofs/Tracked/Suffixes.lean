import LintGateway.Proofs.Occurrences
import LintGateway.Proofs.Text.Case
import LintGateway.Tracked.Suffix
import Mathlib.Data.List.Forall2

/-!
# The normal form of a list of suffixes

What one entry stands for is said by `StandsFor`: what is between the blanks around it, in lower
case, behind a dot. A list in normal form has what its entries stand for, each once and in the order
in which they are met, and is the normal form of itself.

The latter needs that lowering and trimming change nothing in what they have made, with a dot in
front of it as well; `normal?_of_isNormal` gathers this.
-/

set_option autoImplicit false

namespace LintGateway.Suffix

/-- A text starts with a dot. -/
def IsDotted (s : String) : Prop := ∃ rest, s = "." ++ rest

/-- A suffix in normal form: a dot, no blank at either end, and nothing that lowering changes. -/
structure IsNormal (s : String) : Prop where
  dotted : IsDotted s
  solid : Text.HasSolidEnds s.toList
  lower : Text.lower s = s

/-- An entry stands for its core in lower case, behind a dot unless the core brings one. -/
inductive StandsFor (entry : String) : String → Prop
  | dotted {core : String} (hcore : Text.IsCore entry core) (hdot : IsDotted (Text.lower core)) :
      StandsFor entry (Text.lower core)
  | bare {core : String} (hcore : Text.IsCore entry core) (hsome : core ≠ "")
      (hbare : ¬ IsDotted (Text.lower core)) : StandsFor entry ("." ++ Text.lower core)

/-- A text is dotted exactly when it begins with a dot. -/
theorem isDotted_iff {s : String} : IsDotted s ↔ s.toList.head? = some '.' := by
  constructor
  · rintro ⟨rest, rfl⟩
    simp
  · intro h
    cases hchars : s.toList with
    | nil => simp [hchars] at h
    | cons c cs =>
      rw [hchars, List.head?_cons, Option.some.injEq] at h
      refine ⟨String.ofList cs, ?_⟩
      apply String.toList_injective
      simp [hchars, h]

/-- A dotted text is not empty. -/
theorem IsDotted.ne_empty {s : String} (h : IsDotted s) : s ≠ "" := by
  rintro rfl
  simpa using isDotted_iff.mp h

/-! ## One entry -/

variable {entry s : String}

/-- Only a blank entry has no normal form. -/
theorem normal?_eq_none_iff : normal? entry = none ↔ Text.isBlankText entry = true := by
  rw [← Text.trim_eq_empty_iff, ← Text.lower_eq_empty_iff, ← String.isEmpty_iff]
  unfold normal?
  simp only
  split_ifs <;> simp_all

/-- The normal form of an entry is the suffix that it stands for. -/
theorem normal?_eq_some_iff : normal? entry = some s ↔ StandsFor entry s := by
  unfold normal?
  simp only [String.isEmpty_iff, Text.lower_eq_empty_iff]
  constructor
  · intro h
    have hcore := Text.trim_eq_iff.mp (rfl : Text.trim entry = Text.trim entry)
    split_ifs at h with hempty hdot
    · rw [← Option.some.inj h]
      exact .dotted hcore (isDotted_iff.mpr hdot)
    · rw [← Option.some.inj h]
      exact .bare hcore hempty fun hbare => hdot (isDotted_iff.mp hbare)
  · intro h
    cases h with
    | dotted hcore hdot =>
      have hsome := Text.lower_eq_empty_iff.not.mp hdot.ne_empty
      rw [Text.trim_eq_iff.mpr hcore, if_neg hsome, if_pos (isDotted_iff.mp hdot)]
    | bare hcore hsome hbare =>
      rw [Text.trim_eq_iff.mpr hcore, if_neg hsome, if_neg (isDotted_iff.not.mp hbare)]

/-- What an entry stands for is normal. -/
theorem StandsFor.isNormal (h : StandsFor entry s) : IsNormal s := by
  cases h with
  | dotted hcore hdot =>
    obtain ⟨-, -, -, -, -, hsolid⟩ := hcore
    exact ⟨hdot, Text.hasSolidEnds_lower hsolid, Text.lower_lower _⟩
  | @bare core hcore hsome hbare =>
    obtain ⟨-, -, -, -, -, hsolid⟩ := hcore
    have hlowered := Text.hasSolidEnds_lower hsolid
    refine ⟨⟨_, rfl⟩, ⟨?_, ?_⟩, Text.lower_dot_lower core⟩
    · intro c hc
      have hdot : '.' = c := by simpa using hc
      rw [← hdot]
      rfl
    · intro c hc
      have hne : (Text.lower core).toList ≠ [] := by simpa [Text.lower_eq_empty_iff] using hsome
      apply hlowered.2
      rwa [String.toList_append, List.getLast?_append_of_ne_nil _ hne] at hc

/-- A suffix in normal form stands for itself. -/
theorem normal?_of_isNormal (h : IsNormal s) : normal? s = some s := by
  have hcore : Text.IsCore s s := Text.trim_eq_iff.mp (Text.trim_of_hasSolidEnds h.solid)
  have hdot : IsDotted (Text.lower s) := by simpa [h.lower] using h.dotted
  have hstands := StandsFor.dotted hcore hdot
  rw [h.lower] at hstands
  exact normal?_eq_some_iff.mpr hstands

/-- Blanks around an entry do not matter. -/
theorem normal?_trim (entry : String) : normal? (Text.trim entry) = normal? entry := by
  unfold normal?
  rw [Text.trim_trim]

/-! ## Lists -/

/-- The first occurrences are the entries not seen before, without repetition. -/
theorem firstOccurrences_eq (seen entries : List String) :
    firstOccurrences seen entries = (entries.filter fun s => s ∉ seen).eraseDups := by
  induction entries generalizing seen with
  | nil => rfl
  | cons first rest ih =>
    unfold firstOccurrences
    by_cases hseen : first ∈ seen
    · simp [hseen, ih]
    · have hrest : (rest.filter fun s => s ∉ seen).filter (fun s => !s == first) =
          rest.filter fun s => s ∉ first :: seen := by
        rw [List.filter_filter]
        apply List.filter_congr
        intro s _
        by_cases hs : s = first <;> simp [hs]
      have hfirst : (first :: rest).filter (fun s => s ∉ seen) =
          first :: rest.filter fun s => s ∉ seen := by simp [hseen]
      rw [if_neg hseen, ih, hfirst, List.eraseDups_cons, hrest]

/-- A list of suffixes is normalised to the normal forms of its entries, without repetition. -/
theorem normalize_eq (raw : List String) :
    normalize raw = (raw.filterMap normal?).eraseDups := by
  simp [normalize, firstOccurrences_eq]

/-- The normal form of a list holds the normal forms of its entries. -/
theorem mem_normalize_iff {raw : List String} :
    s ∈ normalize raw ↔ ∃ entry ∈ raw, normal? entry = some s := by
  rw [normalize_eq, List.mem_eraseDups, List.mem_filterMap]

/-- Every suffix of a normalised list is normal. -/
theorem isNormal_of_mem_normalize {raw : List String} (h : s ∈ normalize raw) : IsNormal s := by
  obtain ⟨entry, -, hentry⟩ := mem_normalize_iff.mp h
  exact (normal?_eq_some_iff.mp hentry).isNormal

/-- A normalised list has no repetition. -/
theorem nodup_normalize (raw : List String) : (normalize raw).Nodup := by
  rw [normalize_eq]
  exact nodup_eraseDups _

/-- A list of normal suffixes without repetition is not changed. -/
theorem normalize_of_isNormal {entries : List String} (hnormal : ∀ s ∈ entries, IsNormal s)
    (hnodup : entries.Nodup) : normalize entries = entries := by
  have hkept : entries.filterMap normal? = entries := by
    rw [List.filterMap_congr fun s hs => normal?_of_isNormal (hnormal s hs)]
    simp
  rw [normalize_eq, hkept, eraseDups_of_nodup hnodup]

/-- Normalising twice is normalising once. -/
theorem normalize_normalize (raw : List String) : normalize (normalize raw) = normalize raw :=
  normalize_of_isNormal (fun _ => isNormal_of_mem_normalize) (nodup_normalize raw)

/-- The entries that are not blank, each with what it stands for. -/
theorem forall₂_standsFor (raw : List String) :
    List.Forall₂ StandsFor (raw.filter fun entry => !Text.isBlankText entry)
      (raw.filterMap normal?) := by
  induction raw with
  | nil => exact .nil
  | cons entry raw ih =>
    cases hentry : normal? entry with
    | none =>
      have hblank := normal?_eq_none_iff.mp hentry
      simpa [hentry, hblank] using ih
    | some s =>
      have hsolid : Text.isBlankText entry = false := by
        rw [← Bool.not_eq_true, ← normal?_eq_none_iff, hentry]
        simp
      simpa [hentry, hsolid] using List.Forall₂.cons (normal?_eq_some_iff.mp hentry) ih

end LintGateway.Suffix
