/-!
# Cutting and joining texts

Lists of values come as one text with commas, keys as two parts around a colon, command arguments
with a placeholder to fill in. All of them are cut by the functions here, which work on lists of
characters; the versions on `String` only change the form.
-/

set_option autoImplicit false

namespace LintGateway.Text

/-- The pieces of a text between the occurrences of a mark; a text without the mark is one piece. -/
def splitChars (mark : Char) : List Char → List (List Char)
  | [] => [[]]
  | c :: cs =>
    match splitChars mark cs with
    | [] => [[c]]
    | piece :: pieces => if c = mark then [] :: piece :: pieces else (c :: piece) :: pieces

/-- The pieces of a text between the occurrences of a mark. -/
def split (mark : Char) (s : String) : List String :=
  (splitChars mark s.toList).map String.ofList

/-- What comes before and after the first occurrence of a mark, if there is one. -/
def cutChars (mark : Char) : List Char → Option (List Char × List Char)
  | [] => none
  | c :: cs => if c = mark then some ([], cs) else (cutChars mark cs).map fun p => (c :: p.1, p.2)

/-- What comes before and after the first occurrence of a mark, if there is one. -/
def cut (mark : Char) (s : String) : Option (String × String) :=
  (cutChars mark s.toList).map fun p => (String.ofList p.1, String.ofList p.2)

/-- The text after a word that it has to start with. -/
def afterWord : List Char → List Char → Option (List Char)
  | [], cs => some cs
  | w :: word, c :: cs => if w = c then afterWord word cs else none
  | _ :: _, [] => none

/-- Puts `new` for each occurrence of `old` that a scan from the left meets; the first argument
counts the characters still to be skipped of an occurrence already replaced. An empty `old` occurs
nowhere. -/
def replaceChars (old new : List Char) : Nat → List Char → List Char
  | _, [] => []
  | skip + 1, _ :: cs => replaceChars old new skip cs
  | 0, c :: cs =>
    if !old.isEmpty && old.isPrefixOf (c :: cs) then
      new ++ replaceChars old new (old.length - 1) cs
    else c :: replaceChars old new 0 cs

/-- A text with `new` for each occurrence of `old`, from the left and without overlaps. -/
def replace (old new s : String) : String :=
  String.ofList (replaceChars old.toList new.toList 0 s.toList)

/-- Characters without the mark are one piece. -/
theorem splitChars_of_not_mem {mark : Char} {cs : List Char} (h : mark ∉ cs) :
    splitChars mark cs = [cs] := by
  induction cs with
  | nil => rfl
  | cons c cs ih =>
    simp only [List.mem_cons, not_or] at h
    simp [splitChars, ih h.2, Ne.symm h.1]

/-- There is at least one piece. -/
theorem splitChars_ne_nil (mark : Char) (cs : List Char) : splitChars mark cs ≠ [] := by
  cases cs with
  | nil => simp [splitChars]
  | cons c cs =>
    unfold splitChars
    split
    · simp
    · split <;> simp

/-- A mark at the start leaves an empty piece before it. -/
@[simp] theorem splitChars_mark (mark : Char) (cs : List Char) :
    splitChars mark (mark :: cs) = [] :: splitChars mark cs := by
  rw [splitChars]
  split
  · rename_i hnil
    exact absurd hnil (splitChars_ne_nil mark cs)
  · rename_i hpieces
    rw [if_pos rfl, hpieces]

/-- The mark is in no piece. -/
theorem not_mem_of_mem_splitChars {mark : Char} {cs piece : List Char}
    (h : piece ∈ splitChars mark cs) : mark ∉ piece := by
  induction cs generalizing piece with
  | nil =>
    rw [List.mem_singleton.mp h]
    exact List.not_mem_nil
  | cons c cs ih =>
    by_cases hc : c = mark
    · rw [hc, splitChars_mark, List.mem_cons] at h
      rcases h with rfl | h
      · exact List.not_mem_nil
      · exact ih h
    · rw [splitChars] at h
      split at h
      · rw [List.mem_singleton.mp h, List.mem_singleton]
        exact Ne.symm hc
      · rename_i first rest hpieces
        rw [if_neg hc, List.mem_cons] at h
        rcases h with rfl | h
        · have hfirst := ih (hpieces ▸ List.mem_cons_self)
          exact List.not_mem_cons_of_ne_of_not_mem (Ne.symm hc) hfirst
        · exact ih (hpieces ▸ List.mem_cons_of_mem _ h)

/-- Characters up to the first mark are the first piece. -/
theorem splitChars_append_mark {mark : Char} {piece : List Char} (h : mark ∉ piece)
    (cs : List Char) : splitChars mark (piece ++ mark :: cs) = piece :: splitChars mark cs := by
  induction piece with
  | nil => exact splitChars_mark mark cs
  | cons c piece ih =>
    simp only [List.mem_cons, not_or] at h
    rw [List.cons_append, splitChars, ih h.2]
    simp [Ne.symm h.1]

/-- Pieces without the mark are got back from the text that they are joined to. -/
theorem splitChars_intercalate {mark : Char} {pieces : List (List Char)} (hne : pieces ≠ [])
    (h : ∀ piece ∈ pieces, mark ∉ piece) :
    splitChars mark ([mark].intercalate pieces) = pieces := by
  induction pieces with
  | nil => exact absurd rfl hne
  | cons piece pieces ih =>
    have hpiece := h piece List.mem_cons_self
    cases pieces with
    | nil => simpa [List.intercalate] using splitChars_of_not_mem hpiece
    | cons next rest =>
      have hjoin : [mark].intercalate (piece :: next :: rest) =
          piece ++ mark :: [mark].intercalate (next :: rest) := by
        simp [List.intercalate]
      rw [hjoin, splitChars_append_mark hpiece,
        ih (by simp) fun other hother => h other (List.mem_cons_of_mem _ hother)]

/-- A text is cut at a mark into what stands before the first one and what stands after it. -/
theorem cutChars_eq_some_iff {mark : Char} {cs before after : List Char} :
    cutChars mark cs = some (before, after) ↔ cs = before ++ mark :: after ∧ mark ∉ before := by
  induction cs generalizing before with
  | nil => simp [cutChars]
  | cons c cs ih =>
    unfold cutChars
    by_cases hc : c = mark
    · rw [if_pos hc, hc]
      constructor
      · intro h
        obtain ⟨rfl, rfl⟩ := Prod.mk.inj (Option.some.inj h)
        exact ⟨rfl, List.not_mem_nil⟩
      · rintro ⟨heq, hnot⟩
        cases before with
        | nil => rw [(List.cons.inj heq).2]
        | cons b before => exact absurd (List.mem_cons.mpr (Or.inl (List.cons.inj heq).1)) hnot
    · rw [if_neg hc, Option.map_eq_some_iff]
      constructor
      · rintro ⟨⟨rest, _⟩, hrest, heq⟩
        obtain ⟨rfl, rfl⟩ := Prod.mk.inj heq
        obtain ⟨rfl, hnot⟩ := ih.mp hrest
        exact ⟨rfl, List.not_mem_cons_of_ne_of_not_mem (Ne.symm hc) hnot⟩
      · rintro ⟨heq, hnot⟩
        cases before with
        | nil => exact absurd (List.cons.inj heq).1 hc
        | cons b before =>
          obtain ⟨rfl, rfl⟩ := List.cons.inj heq
          exact ⟨(before, after), ih.mpr ⟨rfl, List.not_mem_of_not_mem_cons hnot⟩, rfl⟩

/-- A text is cut at its first mark. -/
theorem cut_eq_some_iff {mark : Char} {s before after : String} :
    cut mark s = some (before, after) ↔
      s.toList = before.toList ++ mark :: after.toList ∧ mark ∉ before.toList := by
  unfold cut
  rw [Option.map_eq_some_iff]
  constructor
  · rintro ⟨⟨cs, ds⟩, hcut, heq⟩
    obtain ⟨rfl, rfl⟩ := Prod.mk.inj heq
    rw [String.toList_ofList, String.toList_ofList]
    exact cutChars_eq_some_iff.mp hcut
  · intro h
    refine ⟨(before.toList, after.toList), cutChars_eq_some_iff.mpr h, ?_⟩
    rw [String.ofList_toList, String.ofList_toList]

end LintGateway.Text
