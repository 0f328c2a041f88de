import LintGateway.Proofs.Text.Blank
import LintGateway.Text.Case
import Mathlib.Data.List.Basic
import Mathlib.Tactic.SplitIfs

/-!
# Lower case is kept by lowering

A text in lower case has no character left that has another lower-case form, so lowering it again
changes nothing, with whatever text before it. Nor does lowering put a blank where there was none.

All of this is read off the table of runs by comparing each run with each other one: the forms that
a run gives lie outside of the other, or between its code points (`caseRuns_misses`). No code point
has to be looked at by itself.
-/

set_option autoImplicit false

namespace LintGateway.Text

/-! ## One run -/

namespace CaseRun

/-- A run gives a code point a lower-case form. -/
def Covers (r : CaseRun) (n : Nat) : Prop :=
  r.first ≤ n ∧ n ≤ r.last ∧ (n - r.first) % r.stride = 0

/-- Whether the forms that a run gives lie outside of an interval. -/
def avoids (r : CaseRun) (low high : Nat) : Bool :=
  high.blt r.image || (r.image + (r.last - r.first)).blt low

/-- Whether the forms that a run gives have none by another: they lie outside of it, or between its
code points. -/
def misses (r other : CaseRun) : Bool :=
  r.avoids other.first other.last ||
    (r.first.beq r.last || (r.stride % other.stride).beq 0) && other.first.ble r.image &&
      !((r.image - other.first) % other.stride).beq 0

variable {r other : CaseRun} {n : Nat}

/-- The forms of a run that avoids an interval are not in it. -/
theorem not_mem_of_avoids {low high : Nat} (h : r.avoids low high = true) (hn : r.Covers n) :
    ¬ (low ≤ r.image + (n - r.first) ∧ r.image + (n - r.first) ≤ high) := by
  obtain ⟨hfirst, hlast, -⟩ := hn
  simp only [avoids, Bool.or_eq_true, Nat.blt_eq] at h
  omega

/-- The form of a code point is in no run that its own misses. -/
theorem not_covers_of_misses (h : r.misses other = true) (hn : r.Covers n) :
    ¬ other.Covers (r.image + (n - r.first)) := by
  rintro ⟨hlow, hhigh, hstride⟩
  simp only [misses, Bool.or_eq_true, Bool.and_eq_true, Bool.not_eq_true', Nat.beq_eq,
    Nat.ble_eq, ← Bool.not_eq_true] at h
  rcases h with havoids | ⟨⟨hsteps, himage⟩, hoff⟩
  · exact not_mem_of_avoids havoids hn ⟨hlow, hhigh⟩
  · obtain ⟨hfirst, hlast, hcovered⟩ := hn
    have hdistance : other.stride ∣ n - r.first := by
      rcases hsteps with hsingle | hdvd
      · have hzero : n - r.first = 0 := by omega
        exact hzero ▸ Nat.dvd_zero _
      · exact Nat.dvd_trans (Nat.dvd_of_mod_eq_zero hdvd) (Nat.dvd_of_mod_eq_zero hcovered)
    have hsum : r.image + (n - r.first) - other.first =
        (r.image - other.first) + (n - r.first) := by omega
    rw [hsum] at hstride
    have himages := (Nat.dvd_add_left hdistance).mp (Nat.dvd_of_mod_eq_zero hstride)
    exact hoff (Nat.mod_eq_zero_of_dvd himages)

end CaseRun

/-- A code point is its own lower case or has the form that a run gives it. -/
theorem lowerCodePoint_cases (table : List CaseRun) (n : Nat) :
    lowerCodePoint table n = n ∨
      ∃ r ∈ table, r.Covers n ∧ lowerCodePoint table n = r.image + (n - r.first) := by
  unfold lowerCodePoint
  split
  · rename_i r hfound
    have hmem := List.mem_of_find?_eq_some hfound
    have hinside := List.find?_some hfound
    simp only [Bool.and_eq_true, decide_eq_true_eq] at hinside
    split
    · rename_i hstride
      exact Or.inr ⟨r, hmem, ⟨hinside.1, hinside.2, hstride⟩, rfl⟩
    · exact Or.inl rfl
  · exact Or.inl rfl

/-- A code point in no run is its own lower case. -/
theorem lowerCodePoint_eq_self {table : List CaseRun} {n : Nat}
    (h : ∀ r ∈ table, ¬ r.Covers n) : lowerCodePoint table n = n := by
  rcases lowerCodePoint_cases table n with hself | ⟨r, hr, hn, -⟩
  · exact hself
  · exact absurd hn (h r hr)

/-! ## The table of runs -/

/-- Ranges in which no run has a form. They hold the blanks, the capitals that the runs do not speak
of, and the code points that are no characters. -/
def formless : List (Nat × Nat) :=
  [(9, 32), (65, 90), (0x85, 0xa0), (0x130, 0x130), (0x3a3, 0x3a3), (0x1680, 0x1680),
    (0x2000, 0x205f), (0x3000, 0x3000), (0xd800, 0xdfff)]

/-- The forms that a run gives have none by any run. -/
theorem caseRuns_misses : (caseRuns.all fun r => caseRuns.all r.misses) = true := by
  decide +kernel

/-- The forms of every run are outside of the ranges without one. -/
theorem caseRuns_avoids :
    (caseRuns.all fun r => formless.all fun range => r.avoids range.1 range.2) = true := by
  decide +kernel

/-- The forms of every run are code points. -/
theorem caseRuns_lt :
    (caseRuns.all fun r => (r.image + (r.last - r.first)).blt 0x110000) = true := by
  decide +kernel

/-- The lower-case form of a code point that has another one, by the table: it has no other form
itself, and it is a character of an ordinary kind. -/
structure IsLowerForm (n : Nat) : Prop where
  settled : lowerCodePoint caseRuns n = n
  ordinary : ∀ range ∈ formless, ¬ (range.1 ≤ n ∧ n ≤ range.2)
  lt : n < 0x110000

/-- The form that a run gives is a lower-case form. -/
theorem CaseRun.Covers.isLowerForm {r : CaseRun} (hr : r ∈ caseRuns) {n : Nat} (hn : r.Covers n) :
    IsLowerForm (r.image + (n - r.first)) where
  settled := by
    apply lowerCodePoint_eq_self
    intro other hother
    have hmisses := List.all_eq_true.mp (List.all_eq_true.mp caseRuns_misses r hr) other hother
    exact CaseRun.not_covers_of_misses hmisses hn
  ordinary := by
    intro range hrange
    have havoids := List.all_eq_true.mp (List.all_eq_true.mp caseRuns_avoids r hr) range hrange
    exact CaseRun.not_mem_of_avoids havoids hn
  lt := by
    have hlt := List.all_eq_true.mp caseRuns_lt r hr
    have hlast := hn.2.1
    rw [Nat.blt_eq] at hlt
    omega

/-- The lower-case form of a code point is itself or a form. -/
theorem eq_self_or_isLowerForm (n : Nat) :
    lowerCodePoint caseRuns n = n ∨ IsLowerForm (lowerCodePoint caseRuns n) := by
  rcases lowerCodePoint_cases caseRuns n with hself | ⟨r, hr, hn, heq⟩
  · exact Or.inl hself
  · exact Or.inr (heq ▸ hn.isLowerForm hr)

namespace IsLowerForm

variable {n : Nat}

/-- A lower-case form is the code of a character. -/
theorem toNat_ofNat (h : IsLowerForm n) : (Char.ofNat n).toNat = n := by
  have hsurrogate := h.ordinary (0xd800, 0xdfff) (by simp [formless])
  have hlt := h.lt
  have hvalid : n.isValidChar := by
    unfold Nat.isValidChar
    simp only at hsurrogate
    omega
  have hchar : Char.ofNat n = Char.ofNatAux n hvalid := dif_pos hvalid
  rw [hchar]
  rfl

/-- A lower-case form is not blank. -/
theorem isBlank_eq_false (h : IsLowerForm n) : isBlank (Char.ofNat n) = false := by
  have hordinary := h.ordinary
  simp only [formless, List.forall_mem_cons] at hordinary
  rw [Bool.eq_false_iff]
  simp only [isBlank, h.toNat_ofNat, ne_eq, Bool.or_eq_true, Bool.and_eq_true, decide_eq_true_eq,
    beq_iff_eq]
  omega

end IsLowerForm

/-! ## One character -/

/-- A character is its own lower-case form, wherever it stands. -/
def IsLower (c : Char) : Prop := ∀ before after, lowerChar before c after = [c]

/-- Below 0x80 the capital letters alone have another form, which is a letter of the same kind. -/
theorem toLower_below : ∀ n < 0x80,
    (¬ (65 ≤ n ∧ n ≤ 90) → (Char.ofNat n).toLower = Char.ofNat n) ∧
      (Char.ofNat n).toLower.toNat < 0x80 ∧
      (Char.ofNat n).toLower.toLower = (Char.ofNat n).toLower ∧
      (isBlank (Char.ofNat n) = false → isBlank (Char.ofNat n).toLower = false) := by
  decide +kernel

/-- Below 128 a character has the lower case of the basic alphabet. -/
theorem lowerChar_below {c : Char} (h : c.toNat < 0x80) (before after : List Char) :
    lowerChar before c after = [c.toLower] := if_pos h

/-- Above, all but two characters have the lower case that the runs give. -/
theorem lowerChar_above {c : Char} (h : ¬ c.toNat < 0x80) (hsigma : c ≠ 'Σ') (hdotted : c ≠ 'İ')
    (before after : List Char) :
    lowerChar before c after = [Char.ofNat (lowerCodePoint caseRuns c.toNat)] := by
  rw [lowerChar, if_neg h, if_neg hsigma, if_neg hdotted]

/-- A character that the runs leave alone is lower. -/
theorem isLower_of_settled {c : Char} (h : ¬ c.toNat < 0x80) (hsigma : c ≠ 'Σ') (hdotted : c ≠ 'İ')
    (hsettled : lowerCodePoint caseRuns c.toNat = c.toNat) : IsLower c := by
  intro before after
  rw [lowerChar_above h hsigma hdotted, hsettled, Char.ofNat_toNat]

/-- The character of a lower-case form is lower. -/
theorem IsLowerForm.isLower {n : Nat} (h : IsLowerForm n) : IsLower (Char.ofNat n) := by
  have hordinary := h.ordinary
  simp only [formless, List.forall_mem_cons] at hordinary
  by_cases hbelow : n < 0x80
  · intro before after
    have hcapital := hordinary.2.1
    rw [lowerChar_below (by rwa [h.toNat_ofNat]), (toLower_below n hbelow).1 hcapital]
  · apply isLower_of_settled
    · rwa [h.toNat_ofNat]
    · intro heq
      have hn : n = 0x3a3 := by rw [← h.toNat_ofNat, heq]; rfl
      omega
    · intro heq
      have hn : n = 0x130 := by rw [← h.toNat_ofNat, heq]; rfl
      omega
    · rw [h.toNat_ofNat]
      exact h.settled

/-- The forms that are written out are lower-case and not blank. -/
theorem isLower_written {d : Char} (h : d ∈ ['ς', 'σ', 'i', '\u0307']) :
    IsLower d ∧ isBlank d = false := by
  simp only [List.mem_cons, List.not_mem_nil, or_false] at h
  rcases h with rfl | rfl | rfl | rfl
  · exact ⟨isLower_of_settled (by decide) (by decide) (by decide) (by decide +kernel), by decide⟩
  · exact ⟨isLower_of_settled (by decide) (by decide) (by decide) (by decide +kernel), by decide⟩
  · exact ⟨lowerChar_below (by decide), by decide⟩
  · exact ⟨isLower_of_settled (by decide) (by decide) (by decide) (by decide +kernel), by decide⟩

/-- What stands for a character in lower case is lower-case, and blank only for a blank. -/
theorem isLower_of_mem_lowerChar {before after : List Char} {c d : Char}
    (h : d ∈ lowerChar before c after) :
    IsLower d ∧ (isBlank c = false → isBlank d = false) := by
  by_cases hbelow : c.toNat < 0x80
  · rw [lowerChar_below hbelow, List.mem_singleton] at h
    have hform := (toLower_below c.toNat hbelow).2
    rw [Char.ofNat_toNat, ← h] at hform
    obtain ⟨hd, hlower, hblank⟩ := hform
    refine ⟨?_, hblank⟩
    intro before after
    rw [lowerChar_below hd, hlower]
  · by_cases hsigma : c = 'Σ'
    · have hwritten : d ∈ ['ς', 'σ', 'i', '\u0307'] := by
        rw [lowerChar, if_neg hbelow, if_pos hsigma, List.mem_singleton] at h
        split at h <;> simp [h]
      exact (isLower_written hwritten).imp id fun hblank _ => hblank
    · by_cases hdotted : c = 'İ'
      · have hwritten : d ∈ ['ς', 'σ', 'i', '\u0307'] := by
          rw [lowerChar, if_neg hbelow, if_neg hsigma, if_pos hdotted] at h
          exact List.mem_cons_of_mem _ (List.mem_cons_of_mem _ h)
        exact (isLower_written hwritten).imp id fun hblank _ => hblank
      · rw [lowerChar_above hbelow hsigma hdotted, List.mem_singleton] at h
        rcases eq_self_or_isLowerForm c.toNat with hself | hform
        · rw [hself, Char.ofNat_toNat] at h
          rw [h]
          exact ⟨isLower_of_settled hbelow hsigma hdotted hself, id⟩
        · rw [h]
          exact ⟨hform.isLower, fun _ => hform.isBlank_eq_false⟩

/-- Every character has a lower case. -/
theorem lowerChar_ne_nil (before : List Char) (c : Char) (after : List Char) :
    lowerChar before c after ≠ [] := by
  unfold lowerChar
  split_ifs <;> simp

/-! ## Whole texts -/

/-- The characters of a text in lower case are lower. -/
theorem isLower_of_mem_lowerChars {before cs : List Char} {d : Char}
    (h : d ∈ lowerChars before cs) : IsLower d := by
  induction cs generalizing before with
  | nil => cases h
  | cons c cs ih =>
    rcases List.mem_append.mp h with hfirst | hrest
    · exact (isLower_of_mem_lowerChar hfirst).1
    · exact ih hrest

/-- A text of lower-case characters is its own lower-case form. -/
theorem lowerChars_of_isLower {cs : List Char} (h : ∀ c ∈ cs, IsLower c) (before : List Char) :
    lowerChars before cs = cs := by
  induction cs generalizing before with
  | nil => rfl
  | cons c cs ih =>
    rw [lowerChars, h c List.mem_cons_self,
      ih fun d hd => h d (List.mem_cons_of_mem c hd), List.singleton_append]

/-- Lower case twice is lower case once. -/
theorem lower_lower (s : String) : lower (lower s) = lower s := by
  unfold lower
  rw [String.toList_ofList, lowerChars_of_isLower fun _ => isLower_of_mem_lowerChars]

/-- Only the empty text is empty in lower case. -/
theorem lower_eq_empty_iff {s : String} : lower s = "" ↔ s = "" := by
  constructor
  · intro h
    have hnil : lowerChars [] s.toList = [] := by simpa [lower] using h
    cases hchars : s.toList with
    | nil => simpa using hchars
    | cons c cs =>
      rw [hchars, lowerChars, List.append_eq_nil_iff] at hnil
      exact absurd hnil.1 (lowerChar_ne_nil [] c cs)
  · rintro rfl
    rfl

/-- The last character of a text in lower case comes from the last one. -/
theorem exists_lowerChars_concat (before cs : List Char) (c : Char) :
    ∃ start context, lowerChars before (cs ++ [c]) = start ++ lowerChar context c [] := by
  induction cs generalizing before with
  | nil => exact ⟨[], before, by simp [lowerChars]⟩
  | cons d cs ih =>
    obtain ⟨start, context, hrest⟩ := ih (d :: before)
    refine ⟨lowerChar before d (cs ++ [c]) ++ start, context, ?_⟩
    rw [List.cons_append, lowerChars, hrest, List.append_assoc]

/-- Lowering puts no blank at an end that had none. -/
theorem hasSolidEnds_lower {s : String} (h : HasSolidEnds s.toList) :
    HasSolidEnds (lower s).toList := by
  rw [lower, String.toList_ofList]
  constructor
  · intro d hd
    cases hchars : s.toList with
    | nil => simp [hchars, lowerChars] at hd
    | cons c cs =>
      rw [hchars, lowerChars, List.head?_append_of_ne_nil _ (lowerChar_ne_nil [] c cs)] at hd
      have hsolid := h.1 c (by simp [hchars])
      exact (isLower_of_mem_lowerChar (List.mem_of_mem_head? hd)).2 hsolid
  · intro d hd
    rcases List.eq_nil_or_concat s.toList with hchars | ⟨cs, c, hchars⟩
    · simp [hchars, lowerChars] at hd
    · obtain ⟨start, context, hlast⟩ := exists_lowerChars_concat [] cs c
      rw [hchars, List.concat_eq_append, hlast,
        List.getLast?_append_of_ne_nil _ (lowerChar_ne_nil context c [])] at hd
      have hsolid := h.2 c (by simp [hchars])
      exact (isLower_of_mem_lowerChar (List.mem_of_mem_getLast? hd)).2 hsolid

/-- A dot in front of lower-case text leaves it lower-case. -/
theorem lower_dot_lower (s : String) : lower ("." ++ lower s) = "." ++ lower s := by
  have hdot : IsLower '.' := lowerChar_below (by decide)
  have hchars : ("." ++ lower s).toList = '.' :: lowerChars [] s.toList := by simp [lower]
  rw [lower, hchars, lowerChars_of_isLower, ← hchars, String.ofList_toList]
  intro c hc
  rcases List.mem_cons.mp hc with rfl | hrest
  · exact hdot
  · exact isLower_of_mem_lowerChars hrest

end LintGateway.Text
