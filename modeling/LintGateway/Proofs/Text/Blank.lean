import LintGateway.Text.Blank
import Mathlib.Data.List.DropRight

/-!
# What is left without the blanks at the ends

A text is cut in just one way into blanks, a core whose ends are not blank, and blanks again, and the
core is what `trim` leaves (`trim_eq_iff`).
-/

set_option autoImplicit false

namespace LintGateway.Text

/-- Neither end of a text is blank. -/
def HasSolidEnds (cs : List Char) : Prop :=
  (∀ c ∈ cs.head?, isBlank c = false) ∧ ∀ c ∈ cs.getLast?, isBlank c = false

/-- The core of a text is what stands between the blanks at its two ends. -/
def IsCore (s core : String) : Prop :=
  ∃ before after : String, s = before ++ core ++ after ∧ isBlankText before = true ∧
    isBlankText after = true ∧ HasSolidEnds core.toList

/-- Trimming drops blanks at the start and then at the end. -/
theorem trimChars_eq (cs : List Char) :
    trimChars cs = (cs.dropWhile isBlank).rdropWhile isBlank := rfl

/-- Nothing is dropped from an end that is not blank. -/
theorem rdropWhile_of_last {cs : List Char} (h : ∀ c ∈ cs.getLast?, isBlank c = false) :
    cs.rdropWhile isBlank = cs := by
  apply List.rdropWhile_eq_self_iff.mpr
  intro hne
  simp [h _ (List.getLast_mem_getLast? hne)]

/-- Trimmed characters have solid ends. -/
theorem hasSolidEnds_trimChars (cs : List Char) : HasSolidEnds (trimChars cs) := by
  rw [trimChars_eq]
  constructor
  · intro c hc
    obtain ⟨rest, hrest⟩ := List.rdropWhile_prefix isBlank (cs.dropWhile isBlank)
    have hhead : (cs.dropWhile isBlank).head? = some c := by
      rw [← hrest, List.head?_append, hc]
      rfl
    have hfirst := List.head?_dropWhile_not isBlank cs
    rw [hhead] at hfirst
    simpa using hfirst
  · intro c hc
    obtain ⟨hne, rfl⟩ := List.mem_getLast?_eq_getLast hc
    simpa using List.rdropWhile_last_not isBlank _ hne

/-- A trimmed text has solid ends. -/
theorem hasSolidEnds_trim (s : String) : HasSolidEnds (trim s).toList := by
  rw [trim, String.toList_ofList]
  exact hasSolidEnds_trimChars s.toList

/-- Blanks added at the end are dropped with those before them. -/
theorem rdropWhile_append_blanks (core : List Char) {after : List Char}
    (h : after.all isBlank = true) :
    (core ++ after).rdropWhile isBlank = core.rdropWhile isBlank := by
  have hblank : ∀ c ∈ after.reverse, isBlank c = true := by simpa using h
  unfold List.rdropWhile
  rw [List.reverse_append, List.dropWhile_append_of_pos hblank]

/-- Blanks around characters with solid ends are trimmed. -/
theorem trimChars_append {before core after : List Char} (hbefore : before.all isBlank = true)
    (hcore : HasSolidEnds core) (hafter : after.all isBlank = true) :
    trimChars (before ++ core ++ after) = core := by
  have hblank : ∀ c ∈ before, isBlank c = true := by simpa using hbefore
  rw [trimChars_eq, List.append_assoc, List.dropWhile_append_of_pos hblank]
  cases core with
  | nil =>
    have hnothing : after.dropWhile isBlank = [] := by simpa using hafter
    rw [List.nil_append, hnothing, List.rdropWhile_nil]
  | cons c core =>
    have hsolid : isBlank c = false := hcore.1 c rfl
    have hstart : (c :: core ++ after).dropWhile isBlank = c :: core ++ after := by simp [hsolid]
    rw [hstart, rdropWhile_append_blanks _ hafter, rdropWhile_of_last hcore.2]

/-- The core of a text is what `trim` leaves. -/
theorem trim_eq_iff {s core : String} : trim s = core ↔ IsCore s core := by
  constructor
  · rintro rfl
    refine ⟨String.ofList (s.toList.takeWhile isBlank),
      String.ofList ((s.toList.dropWhile isBlank).rtakeWhile isBlank), ?_, ?_, ?_, ?_⟩
    · apply String.toList_injective
      simp [trim, trimChars_eq, List.rdropWhile_append_rtakeWhile]
    · simp [isBlankText, List.all_takeWhile]
    · have hblank : ∀ c ∈ (s.toList.dropWhile isBlank).rtakeWhile isBlank, isBlank c = true :=
        fun c hc => List.mem_rtakeWhile_imp hc
      simpa [isBlankText] using hblank
    · exact hasSolidEnds_trim s
  · rintro ⟨before, after, rfl, hbefore, hafter, hcore⟩
    rw [trim, String.toList_append, String.toList_append, trimChars_append hbefore hcore hafter,
      String.ofList_toList]

/-- A text with solid ends is not changed by trimming. -/
theorem trim_of_hasSolidEnds {s : String} (h : HasSolidEnds s.toList) : trim s = s :=
  trim_eq_iff.mpr ⟨"", "", by simp, rfl, rfl, h⟩

/-- Trimming twice is trimming once. -/
theorem trim_trim (s : String) : trim (trim s) = trim s :=
  trim_of_hasSolidEnds (hasSolidEnds_trim s)

/-- A text is trimmed to nothing exactly when it is blank. -/
theorem trim_eq_empty_iff {s : String} : trim s = "" ↔ isBlankText s = true := by
  constructor
  · intro h
    obtain ⟨before, after, rfl, hbefore, hafter, -⟩ := trim_eq_iff.mp h
    unfold isBlankText at *
    simp [hbefore, hafter]
  · intro h
    exact trim_eq_iff.mpr ⟨s, "", by simp, h, rfl, by simp [HasSolidEnds]⟩

end LintGateway.Text
