import LintGateway.Proofs.Json.SameDocument
import LintGateway.Proofs.Json.Scalars

/-!
# Written values read back

A value of nulls, truth values, integers, texts, sequences and records is written as a text that the
reader takes off, whatever follows that does not go on with a number. What it gives is the same
document: sequences have become lists and the members of a record stand in the order of their names.

The proof goes down with the nesting. A container is read back because its items are, one after the
other; what has to be known of an item beyond that is only how its text begins, since the reader
looks for space and for the end of an array before it reads an item.
-/

set_option autoImplicit false

namespace LintGateway.Json

/-- Data without floats and calendar values whose integers can be written, in which containers that
hold something nest at most `levels` deep and no record repeats a name. -/
inductive IsPlain : Nat → Value → Prop where
  | null (levels : Nat) : IsPlain levels .null
  | bool (levels : Nat) (b : Bool) : IsPlain levels (.bool b)
  | int (levels : Nat) {n : Int} (h : Decimal.isWritable n = true) : IsPlain levels (.int n)
  | text (levels : Nat) (s : String) : IsPlain levels (.text s)
  | emptySequence (levels : Nat) {v : Value} (h : v.items? = some []) : IsPlain levels v
  | emptyRecord (levels : Nat) : IsPlain levels (.record [])
  | sequence {levels : Nat} {v : Value} {items : List Value} (hv : v.items? = some items)
      (h : ∀ u ∈ items, IsPlain levels u) : IsPlain (levels + 1) v
  | record {levels : Nat} {members : Value.Table} (hnames : (Members.names members).Nodup)
      (h : ∀ m ∈ members, IsPlain levels m.2) : IsPlain (levels + 1) (.record members)

/-- A character of joined texts is the comma or stands in one of them. -/
theorem mem_intercalate {c : Char} {ts : List (List Char)} (h : c ∈ [','].intercalate ts) :
    c = ',' ∨ ∃ t ∈ ts, c ∈ t := by
  induction ts with
  | nil => cases h
  | cons t ts ih =>
    cases ts with
    | nil =>
      rw [List.intercalate_singleton] at h
      exact Or.inr ⟨t, List.mem_cons_self, h⟩
    | cons u us =>
      rw [List.intercalate_cons_cons, List.mem_append, List.mem_append, List.mem_singleton] at h
      rcases h with (hfirst | hcomma) | hrest
      · exact Or.inr ⟨t, List.mem_cons_self, hfirst⟩
      · exact Or.inl hcomma
      · rcases ih hrest with hcomma | ⟨s, hs, hcs⟩
        · exact Or.inl hcomma
        · exact Or.inr ⟨s, List.mem_cons_of_mem t hs, hcs⟩

/-- None of the joined texts is longer than all of them together. -/
theorem length_le_length_intercalate {t : List Char} {ts : List (List Char)} (h : t ∈ ts) :
    t.length ≤ ([','].intercalate ts).length := by
  induction ts with
  | nil => cases h
  | cons s ts ih =>
    cases ts with
    | nil =>
      have heq : t.length = ([','].intercalate [s]).length := by
        rw [List.intercalate_singleton, List.mem_singleton.mp h]
      exact Nat.le_of_eq heq
    | cons u us =>
      rw [List.intercalate_cons_cons, List.length_append, List.length_append]
      rcases List.mem_cons.mp h with rfl | hrest
      · omega
      · have hle := ih hrest
        omega

/-- There are no more texts than their joined form has characters. -/
theorem card_le_length_intercalate {ts : List (List Char)} (h : ∀ t ∈ ts, t ≠ []) :
    ts.length ≤ ([','].intercalate ts).length := by
  induction ts with
  | nil => exact Nat.le_refl 0
  | cons s ts ih =>
    have hfirst : 0 < s.length := List.length_pos_iff.mpr (h s List.mem_cons_self)
    have hrest := ih fun t ht => h t (List.mem_cons_of_mem s ht)
    cases ts with
    | nil =>
      rw [List.intercalate_singleton]
      exact hfirst
    | cons u us =>
      rw [List.intercalate_cons_cons, List.length_append, List.length_append]
      simp only [List.length_cons] at hrest ⊢
      omega

/-! ## Items and members -/

/-- Where no space stands none is skipped. -/
theorem skipSpace_of_not_space {c : Char} (h : isSpace c = false) (cs : List Char) :
    skipSpace (c :: cs) = c :: cs := by
  simp [skipSpace, h]

/-- A text that the reader neither skips as space nor takes for the end of a container. -/
def Begins (t : List Char) : Prop :=
  ∃ c cs, t = c :: cs ∧ isSpace c = false ∧ c ≠ ']' ∧ c ≠ '\x7d'

/-- A text that begins a value is not empty. -/
theorem Begins.ne_nil {t : List Char} (h : Begins t) : t ≠ [] := by
  obtain ⟨c, cs, rfl, -⟩ := h
  exact List.cons_ne_nil c cs

/-- Nothing is skipped before a text that begins a value. -/
theorem Begins.skipSpace_append {t : List Char} (h : Begins t) (rest : List Char) :
    skipSpace (t ++ rest) = t ++ rest := by
  obtain ⟨c, cs, rfl, hspace, -⟩ := h
  exact skipSpace_of_not_space hspace (cs ++ rest)

/-- A text that is taken off as a value from whatever does not go on with a number. -/
structure IsForm (readOne : List Char → Option (Value × List Char)) (t : List Char) (w : Value) :
    Prop where
  begins : Begins t
  taken : ∀ rest, Closes rest → readOne (t ++ rest) = some (w, rest)

variable {readOne : List Char → Option (Value × List Char)}

/-- A form is taken off before any character that does not go on with a number. -/
theorem IsForm.read_next {t : List Char} {w : Value} (h : IsForm readOne t w) {c : Char}
    (hc : c.isDigit = false ∧ c ≠ '.' ∧ c ≠ 'e' ∧ c ≠ 'E') (rest : List Char) :
    readOne (skipSpace (t ++ c :: rest)) = some (w, c :: rest) := by
  rw [h.begins.skipSpace_append]
  exact h.taken (c :: rest) (closes_cons hc rest)

variable {t : List Char} {w : Value}

/-- An item before a comma is read and the reader goes on. -/
theorem readItems_comma (h : IsForm readOne t w) (left : Nat) (read : List Value)
    (rest : List Char) :
    readItems readOne (left + 1) read (t ++ ',' :: rest) =
      readItems readOne left (w :: read) rest := by
  simp only [readItems, h.read_next (c := ',') (by decide), Option.bind_eq_bind, Option.bind_some,
    skipSpace_of_not_space (show isSpace ',' = false from rfl)]

/-- An item before the closing bracket is the last one. -/
theorem readItems_end (h : IsForm readOne t w) (left : Nat) (read : List Value)
    (rest : List Char) :
    readItems readOne (left + 1) read (t ++ ']' :: rest) =
      some (read.reverse ++ [w], rest) := by
  simp only [readItems, h.read_next (c := ']') (by decide), Option.bind_eq_bind, Option.bind_some,
    skipSpace_of_not_space (show isSpace ']' = false from rfl), Option.pure_def,
    List.reverse_cons]

/-- Items that are taken off one by one are read as an array, up to its end. -/
theorem readItems_join {ts : List (List Char)} {ws : List Value}
    (h : List.Forall₂ (IsForm readOne) ts ws) (hne : ts ≠ []) {left : Nat}
    (hleft : ts.length ≤ left) (read : List Value) (rest : List Char) :
    readItems readOne left read ([','].intercalate ts ++ ']' :: rest) =
      some (read.reverse ++ ws, rest) := by
  induction h generalizing left read with
  | nil => exact absurd rfl hne
  | @cons t w ts ws hfirst hrest ih =>
    cases left with
    | zero => cases hleft
    | succ left =>
      cases hrest with
      | nil =>
        rw [List.intercalate_singleton]
        exact readItems_end hfirst left read rest
      | cons hnext hrest =>
        have hgo := ih (List.cons_ne_nil _ _) (Nat.le_of_succ_le_succ hleft) (w :: read)
        rw [List.intercalate_cons_cons, List.append_assoc, List.append_assoc,
          List.singleton_append, readItems_comma hfirst, hgo, List.reverse_cons,
          List.append_assoc, List.singleton_append]

/-- A member begins with its quoted name. -/
theorem joinMember_append (name : String) (t rest : List Char) :
    joinMember (name, t) ++ rest =
      '"' :: (name.toList.flatMap escapeChar ++ '"' :: ':' :: (t ++ rest)) := by
  unfold joinMember
  rw [List.append_assoc, writeString_append, List.cons_append]

/-- A member before a comma is read and the reader goes on. -/
theorem readMembers_comma (h : IsForm readOne t w) (left : Nat) (read : Value.Table)
    (name : String) (rest : List Char) :
    readMembers readOne (left + 1) read (joinMember (name, t) ++ ',' :: rest) =
      readMembers readOne left (read.put name w) rest := by
  rw [joinMember_append]
  simp only [readMembers, skipSpace_of_not_space (show isSpace '"' = false from rfl),
    readString_written, Option.bind_eq_bind, Option.bind_some,
    skipSpace_of_not_space (show isSpace ':' = false from rfl),
    h.read_next (c := ',') (by decide),
    skipSpace_of_not_space (show isSpace ',' = false from rfl)]

/-- A member before the closing brace is the last one. -/
theorem readMembers_end (h : IsForm readOne t w) (left : Nat) (read : Value.Table)
    (name : String) (rest : List Char) :
    readMembers readOne (left + 1) read (joinMember (name, t) ++ '\x7d' :: rest) =
      some (read.put name w, rest) := by
  rw [joinMember_append]
  simp only [readMembers, skipSpace_of_not_space (show isSpace '"' = false from rfl),
    readString_written, Option.bind_eq_bind, Option.bind_some,
    skipSpace_of_not_space (show isSpace ':' = false from rfl),
    h.read_next (c := '\x7d') (by decide),
    skipSpace_of_not_space (show isSpace '\x7d' = false from rfl), Option.pure_def]

/-- Members whose values are taken off one by one are read as an object, up to its end. -/
theorem readMembers_join {ts : List (String × List Char)} {ns : Value.Table}
    (h : List.Forall₂ (fun t n => t.1 = n.1 ∧ IsForm readOne t.2 n.2) ts ns) (hne : ts ≠ [])
    {left : Nat} (hleft : ts.length ≤ left) (read : Value.Table) (rest : List Char) :
    readMembers readOne left read ([','].intercalate (ts.map joinMember) ++ '\x7d' :: rest) =
      some (ns.foldl (fun t e => Members.put t e.1 e.2) read, rest) := by
  induction h generalizing left read with
  | nil => exact absurd rfl hne
  | @cons t n ts ns hfirst hrest ih =>
    obtain ⟨name, t⟩ := t
    obtain ⟨other, w⟩ := n
    obtain ⟨rfl, hform⟩ := hfirst
    cases left with
    | zero => cases hleft
    | succ left =>
      cases hrest with
      | nil =>
        rw [List.map_singleton, List.intercalate_singleton]
        exact readMembers_end hform left read name rest
      | cons hnext hrest =>
        have hgo := ih (List.cons_ne_nil _ _) (Nat.le_of_succ_le_succ hleft) (read.put name w)
        rw [List.map_cons, List.map_cons, List.intercalate_cons_cons, List.append_assoc,
          List.append_assoc, List.singleton_append, readMembers_comma hform]
        exact hgo

/-! ## Containers -/

/-- An array that is not empty is read by its items. -/
theorem readValue_list {c : Char} (hspace : isSpace c = false) (hc : c ≠ ']') (most levels : Nat)
    (cs : List Char) :
    readValue most (levels + 1) ('[' :: c :: cs) =
      (readItems (readValue most levels) most [] (c :: cs)).map fun r => (.list r.1, r.2) := by
  have hskip := skipSpace_of_not_space hspace cs
  simp [readValue, hskip, hc]

/-- An object that is not empty is read by its members. -/
theorem readValue_record {c : Char} (hspace : isSpace c = false) (hc : c ≠ '\x7d')
    (most levels : Nat) (cs : List Char) :
    readValue most (levels + 1) ('\x7b' :: c :: cs) =
      (readMembers (readValue most levels) most [] (c :: cs)).map fun r => (.record r.1, r.2) := by
  have hskip := skipSpace_of_not_space hspace cs
  simp [readValue, hskip, hc]

/-- A text on one line that the reader takes off as a value in which containers that hold something
nest at most `levels` deep. -/
structure ReadsAs (levels : Nat) (t : List Char) (w : Value) : Prop where
  begins : Begins t
  oneLine : '\n' ∉ t
  taken : ∀ most rest, t.length ≤ most → Closes rest →
    readValue most levels (t ++ rest) = some (w, rest)

/-- A text that is read as a value is a form of it for every reader that goes as deep. -/
theorem ReadsAs.isForm {levels most : Nat} (h : ReadsAs levels t w) (hmost : t.length ≤ most) :
    IsForm (readValue most levels) t w :=
  ⟨h.begins, fun rest hrest => h.taken most rest hmost hrest⟩

/-- Joined texts begin a value when the first of them does. -/
theorem begins_intercalate {ts : List (List Char)} (h : ∀ t ∈ ts, Begins t) (hne : ts ≠ []) :
    Begins ([','].intercalate ts) := by
  cases ts with
  | nil => exact absurd rfl hne
  | cons t ts =>
    cases ts with
    | nil =>
      rw [List.intercalate_singleton]
      exact h t List.mem_cons_self
    | cons u us =>
      obtain ⟨c, cs, rfl, hc⟩ := h t List.mem_cons_self
      rw [List.intercalate_cons_cons, List.append_assoc, List.cons_append]
      exact ⟨c, _, rfl, hc⟩

/-- A character that stands in none of the texts and is no comma is not among the joined ones. -/
theorem not_mem_intercalate {c : Char} {ts : List (List Char)} (hc : c ≠ ',')
    (h : ∀ t ∈ ts, c ∉ t) : c ∉ [','].intercalate ts := by
  intro hmem
  rcases mem_intercalate hmem with hcomma | ⟨t, ht, hct⟩
  · exact hc hcomma
  · exact h t ht hct

/-- The form of an empty sequence is read as an empty array. -/
theorem readsAs_noItems (levels : Nat) : ReadsAs levels (joinItems []) (.list []) where
  begins := ⟨'[', [']'], rfl, rfl, by decide⟩
  oneLine := by decide
  taken := by
    intro most rest _ _
    unfold readValue
    rfl

/-- Joined items are on one line when each of them is. -/
theorem newline_not_mem_joinItems {ts : List (List Char)} (h : ∀ t ∈ ts, '\n' ∉ t) :
    '\n' ∉ joinItems ts := by
  have hbody := not_mem_intercalate (show '\n' ≠ ',' by decide) h
  simp [joinItems, hbody]

/-- A written sequence is longer than its joined items by the brackets. -/
theorem length_joinItems (ts : List (List Char)) :
    (joinItems ts).length = ([','].intercalate ts).length + 2 := by
  simp [joinItems]

/-- Items that are read back are read back as an array, one level further out. -/
theorem readsAs_joinItems {levels : Nat} {ts : List (List Char)} {ws : List Value}
    (h : List.Forall₂ (ReadsAs levels) ts ws) : ReadsAs (levels + 1) (joinItems ts) (.list ws) := by
  by_cases hne : ts = []
  · subst hne
    cases h
    exact readsAs_noItems (levels + 1)
  have heach : ∀ t ∈ ts, Begins t ∧ '\n' ∉ t := by
    intro t ht
    obtain ⟨w, -, hw⟩ := exists_mem_of_forall₂ h ht
    exact ⟨hw.begins, hw.oneLine⟩
  have hbegins : ∀ t ∈ ts, Begins t := fun t ht => (heach t ht).1
  refine ⟨⟨'[', _, rfl, rfl, by decide⟩, newline_not_mem_joinItems fun t ht => (heach t ht).2, ?_⟩
  intro most rest hmost hrest
  rw [length_joinItems] at hmost
  have hform : List.Forall₂ (IsForm (readValue most levels)) ts ws := by
    apply forall₂_imp_of_mem h
    intro t ht w _ hw
    have hle := length_le_length_intercalate ht
    exact hw.isForm (by omega)
  have hcount := card_le_length_intercalate fun t ht => (hbegins t ht).ne_nil
  have hitems := readItems_join hform hne (show ts.length ≤ most by omega) [] rest
  obtain ⟨c, cs, hbody, hspace, hend, -⟩ := begins_intercalate hbegins hne
  unfold joinItems
  rw [List.cons_append, List.cons_append, List.append_assoc, List.singleton_append]
  rw [hbody, List.cons_append] at hitems ⊢
  rw [readValue_list hspace hend, hitems]
  rfl

/-- The form of an empty object is read as one. -/
theorem readsAs_noMembers (levels : Nat) : ReadsAs levels (encloseMembers []) (.record []) where
  begins := ⟨'\x7b', ['\x7d'], rfl, rfl, by decide⟩
  oneLine := by decide
  taken := by
    intro most rest _ _
    unfold readValue
    rfl

/-- A written member begins with a quote. -/
theorem begins_joinMember (m : String × List Char) : Begins (joinMember m) := by
  unfold joinMember writeString
  exact ⟨'"', _, rfl, rfl, by decide⟩

/-- A written member is longer than its parts by the colon. -/
theorem length_joinMember (m : String × List Char) :
    (joinMember m).length = (writeString m.1).length + m.2.length + 1 := by
  simp [joinMember, Nat.add_assoc]

/-- An object is on one line when the values of its members are. -/
theorem newline_not_mem_encloseMembers {ts : List (String × List Char)}
    (h : ∀ t ∈ ts, '\n' ∉ t.2) : '\n' ∉ encloseMembers ts := by
  have hbody : '\n' ∉ [','].intercalate (ts.map joinMember) := by
    apply not_mem_intercalate (by decide)
    intro s hs
    obtain ⟨t, ht, rfl⟩ := List.mem_map.mp hs
    simp [joinMember, newline_not_mem_writeString, h t ht]
  simp [encloseMembers, hbody]

/-- A written object is longer than its joined members by the braces. -/
theorem length_encloseMembers (ts : List (String × List Char)) :
    (encloseMembers ts).length = ([','].intercalate (ts.map joinMember)).length + 2 := by
  simp [encloseMembers]

/-- Values that are read back are read back as the members of an object, one level further out. -/
theorem readsAs_encloseMembers {levels : Nat} {ts : List (String × List Char)} {ns : Value.Table}
    (h : List.Forall₂ (fun t n => t.1 = n.1 ∧ ReadsAs levels t.2 n.2) ts ns)
    (hnames : (Members.names ns).Nodup) :
    ReadsAs (levels + 1) (encloseMembers ts) (.record ns) := by
  by_cases hne : ts = []
  · subst hne
    cases h
    exact readsAs_noMembers (levels + 1)
  have hlines : ∀ t ∈ ts, '\n' ∉ t.2 := by
    intro t ht
    obtain ⟨n, -, -, hn⟩ := exists_mem_of_forall₂ h ht
    exact hn.oneLine
  have hbegins : ∀ s ∈ ts.map joinMember, Begins s := by
    intro s hs
    obtain ⟨t, -, rfl⟩ := List.mem_map.mp hs
    exact begins_joinMember t
  refine ⟨⟨'\x7b', _, rfl, rfl, by decide⟩, newline_not_mem_encloseMembers hlines, ?_⟩
  intro most rest hmost hrest
  rw [length_encloseMembers] at hmost
  have hform : List.Forall₂ (fun t n => t.1 = n.1 ∧ IsForm (readValue most levels) t.2 n.2)
      ts ns := by
    apply forall₂_imp_of_mem h
    intro t ht n _ hn
    have hle := length_le_length_intercalate (List.mem_map_of_mem (f := joinMember) ht)
    rw [length_joinMember] at hle
    exact ⟨hn.1, hn.2.isForm (by omega)⟩
  have hcount := card_le_length_intercalate fun s hs => (hbegins s hs).ne_nil
  rw [List.length_map] at hcount
  have hmembers := readMembers_join hform hne (show ts.length ≤ most by omega) [] rest
  have hfold : ns.foldl (fun t e => Members.put t e.1 e.2) [] = ns :=
    Members.ofList_eq_self hnames
  have hbody := begins_intercalate hbegins fun hnil => hne (List.map_eq_nil_iff.mp hnil)
  obtain ⟨c, cs, hbody, hspace, -, hend⟩ := hbody
  unfold encloseMembers
  rw [List.cons_append, List.cons_append, List.append_assoc, List.singleton_append]
  rw [hbody, List.cons_append] at hmembers ⊢
  rw [readValue_record hspace hend, hmembers, hfold]
  rfl

/-! ## Values -/

/-- How a value that is no container begins. -/
def BeginsScalar (c : Char) : Prop :=
  (isSpace c = false ∧ c ≠ ']' ∧ c ≠ '\x7d') ∧ c ≠ '[' ∧ c ≠ '\x7b'

/-- A digit begins a value that is no container. -/
theorem beginsScalar_of_isDigit {c : Char} (h : c.isDigit = true) : BeginsScalar c := by
  refine ⟨⟨?_, ?_, ?_⟩, ?_, ?_⟩
  · rw [Bool.eq_false_iff]
    intro hspace
    simp only [isSpace, Bool.or_eq_true, decide_eq_true_eq] at hspace
    rcases hspace with ((rfl | rfl) | rfl) | rfl
    all_goals exact absurd h (by decide)
  all_goals
    rintro rfl
    exact absurd h (by decide)

/-- What the reader of single values takes off is read as a value at every depth. -/
theorem readsAs_scalar (levels : Nat) {c : Char} {cs : List Char} (hc : BeginsScalar c)
    (hline : '\n' ∉ c :: cs)
    (hread : ∀ rest, Closes rest → readScalar (c :: cs ++ rest) = some (w, rest)) :
    ReadsAs levels (c :: cs) w where
  begins := ⟨c, cs, rfl, hc.1⟩
  oneLine := hline
  taken := by
    intro most rest _ hrest
    rw [← hread rest hrest, List.cons_append]
    simp [readValue, hc.2]

/-- A written text is read as the text. -/
theorem readsAs_writeString (levels : Nat) (s : String) :
    ReadsAs levels (writeString s) (.text s) := by
  have hform := writeString_append s []
  rw [List.append_nil] at hform
  have hline := newline_not_mem_writeString s
  rw [hform] at hline ⊢
  refine readsAs_scalar levels (by unfold BeginsScalar; decide) hline fun rest _ => ?_
  rw [← hform]
  exact readScalar_writeString s rest

/-- A number has no line feed among its digits. -/
theorem newline_not_mem_toDigits (n : Nat) : '\n' ∉ Nat.toDigits 10 n := by
  intro h
  exact absurd (isDigit_of_mem_toDigits _ h) (by decide)

/-- A written integer is read as the integer, if it is not too long. -/
theorem readsAs_toString (levels : Nat) {n : Int} (h : Decimal.isWritable n = true) :
    ReadsAs levels (toString n).toList (.int n) := by
  have hread : ∀ rest, Closes rest →
      readScalar ((toString n).toList ++ rest) = some (.int n, rest) :=
    fun rest hrest => readScalar_toString h hrest
  cases n with
  | ofNat m =>
    rw [show Int.ofNat m = (m : Int) from rfl, toList_toString_ofNat] at hread ⊢
    have hline := newline_not_mem_toDigits m
    cases hdigits : Nat.toDigits 10 m with
    | nil => exact absurd hdigits Nat.toDigits_ne_nil
    | cons d ds =>
      rw [hdigits] at hread hline
      have hd : d.isDigit = true := isDigit_of_mem_toDigits d (hdigits ▸ List.mem_cons_self)
      exact readsAs_scalar levels (beginsScalar_of_isDigit hd) hline hread
  | negSucc m =>
    rw [toList_toString_negSucc] at hread ⊢
    refine readsAs_scalar levels (by unfold BeginsScalar; decide) ?_ hread
    have hline := newline_not_mem_toDigits (m + 1)
    simp [hline]

/-- A value is written as a text that reads back as the same document. -/
def ReadsBack (levels : Nat) (v : Value) : Prop :=
  ∃ t w, write? v = some t ∧ SameDocument w v ∧ ReadsAs levels t w

/-- An empty sequence reads back. -/
theorem readsBack_noItems (levels : Nat) {v : Value} (hv : v.items? = some []) :
    ReadsBack levels v := by
  refine ⟨joinItems [], .list [], ?_, .of_items rfl hv .nil, readsAs_noItems levels⟩
  exact (write?_eq_some_iff_of_items? hv).mpr ⟨[], .nil, rfl⟩

/-- An empty object reads back. -/
theorem readsBack_noMembers (levels : Nat) : ReadsBack levels (.record []) := by
  refine ⟨encloseMembers [], .record [], ?_, .record (.refl _) (by simp), readsAs_noMembers levels⟩
  refine write?_record_eq_some_iff.mpr ⟨[], .nil, ?_⟩
  rw [joinMembers, List.mergeSort_nil]

/-- A sequence reads back when its items do, one level deeper. -/
theorem readsBack_sequence {levels : Nat} {v : Value} {items : List Value}
    (hv : v.items? = some items) (h : ∀ u ∈ items, ReadsBack levels u) :
    ReadsBack (levels + 1) v := by
  -- each item with its form and with the value that is read back from that form
  obtain ⟨ps, hps⟩ := (exists_forall₂_iff (fun u (p : List Char × Value) =>
      write? u = some p.1 ∧ SameDocument p.2 u ∧ ReadsAs levels p.1 p.2) items).mpr fun u hu => by
    obtain ⟨t, w, huw⟩ := h u hu
    exact ⟨(t, w), huw⟩
  have hwritten : List.Forall₂ (fun u t => write? u = some t) items (ps.map Prod.fst) := by
    rw [List.forall₂_map_right_iff]
    exact hps.imp fun _ _ hp => hp.1
  have hsame : List.Forall₂ SameDocument (ps.map Prod.snd) items := by
    rw [List.forall₂_map_left_iff]
    exact List.Forall₂.flip (hps.imp fun _ _ hp => hp.2.1)
  have hread : List.Forall₂ (ReadsAs levels) (ps.map Prod.fst) (ps.map Prod.snd) := by
    rw [List.forall₂_map_left_iff, List.forall₂_map_right_iff, List.forall₂_same]
    intro p hp
    obtain ⟨u, -, -, -, hreads⟩ := exists_mem_of_forall₂ (List.Forall₂.flip hps) hp
    exact hreads
  refine ⟨_, .list (ps.map Prod.snd), ?_, .of_items rfl hv hsame, readsAs_joinItems hread⟩
  exact (write?_eq_some_iff_of_items? hv).mpr ⟨_, hwritten, rfl⟩

/-- An object without repeated names reads back when its values do, one level deeper. -/
theorem readsBack_record {levels : Nat} {members : Value.Table}
    (hnames : (Members.names members).Nodup) (h : ∀ m ∈ members, ReadsBack levels m.2) :
    ReadsBack (levels + 1) (.record members) := by
  -- each member's name with the form of its value and with the value that is read back from it
  obtain ⟨ps, hps⟩ := (exists_forall₂_iff (fun m (p : String × List Char × Value) =>
      m.1 = p.1 ∧ write? m.2 = some p.2.1 ∧ SameDocument p.2.2 m.2 ∧ ReadsAs levels p.2.1 p.2.2)
      members).mpr fun m hm => by
    obtain ⟨t, w, hmw⟩ := h m hm
    exact ⟨(m.1, t, w), rfl, hmw⟩
  have hfrom : ∀ p ∈ ps, ∃ m ∈ members, m.1 = p.1 ∧ SameDocument p.2.2 m.2 ∧
      ReadsAs levels p.2.1 p.2.2 := by
    intro p hp
    obtain ⟨m, hm, hname, -, hmp⟩ := exists_mem_of_forall₂ (List.Forall₂.flip hps) hp
    exact ⟨m, hm, hname, hmp⟩
  let forms := ps.map fun p => (p.1, p.2.1)
  let inOrder := ps.mergeSort fun p q => p.1 ≤ q.1
  let back : Value.Table := inOrder.map fun p => (p.1, p.2.2)
  have hperm : inOrder.Perm ps := List.mergeSort_perm ps _
  have hwritten :
      List.Forall₂ (fun m t => m.1 = t.1 ∧ write? m.2 = some t.2) members forms := by
    rw [List.forall₂_map_right_iff]
    exact hps.imp fun _ _ hp => ⟨hp.1, hp.2.1⟩
  have hforms : (forms.mergeSort fun a b => a.1 ≤ b.1) = inOrder.map fun p => (p.1, p.2.1) := by
    refine (List.map_mergeSort ?_).symm
    intro p _ q _
    rfl
  have hback : (Members.names back).Perm (Members.names members) := by
    have hsame : Members.names members = Members.names ps :=
      names_eq_of_forall₂ (hps.imp fun _ _ hp => hp.1)
    rw [hsame]
    unfold back Members.names
    rw [List.map_map]
    exact hperm.map Prod.fst
  refine ⟨joinMembers forms, .record back, ?_, .record hback ?_, ?_⟩
  · exact write?_record_eq_some_iff.mpr ⟨forms, hwritten, rfl⟩
  · intro n hn m hm hname
    obtain ⟨p, hp, rfl⟩ := List.mem_map.mp hn
    obtain ⟨m', hm', hname', hsame, -⟩ := hfrom p (hperm.mem_iff.mp hp)
    obtain rfl := List.inj_on_of_nodup_map hnames hm' hm (hname'.trans hname)
    exact hsame
  · rw [joinMembers, hforms]
    refine readsAs_encloseMembers ?_ (hback.nodup_iff.mpr hnames)
    rw [List.forall₂_map_left_iff, List.forall₂_map_right_iff, List.forall₂_same]
    intro p hp
    obtain ⟨-, -, -, -, hreads⟩ := hfrom p (hperm.mem_iff.mp hp)
    exact ⟨rfl, hreads⟩

/-- Plain data reads back. -/
theorem IsPlain.readsBack {levels : Nat} {v : Value} (h : IsPlain levels v) :
    ReadsBack levels v := by
  induction h with
  | null levels =>
    refine ⟨"null".toList, .null, rfl, .null, ?_⟩
    exact readsAs_scalar levels (by unfold BeginsScalar; decide) (by decide) fun _ _ => rfl
  | bool levels b =>
    refine ⟨(if b then "true" else "false").toList, .bool b, rfl, .bool b, ?_⟩
    cases b
    · exact readsAs_scalar levels (by unfold BeginsScalar; decide) (by decide) fun _ _ => rfl
    · exact readsAs_scalar levels (by unfold BeginsScalar; decide) (by decide) fun _ _ => rfl
  | @int levels n hn =>
    exact ⟨_, .int n, write?_int hn, .int n, readsAs_toString levels hn⟩
  | text levels s => exact ⟨_, .text s, rfl, .text s, readsAs_writeString levels s⟩
  | emptySequence levels hv => exact readsBack_noItems levels hv
  | emptyRecord levels => exact readsBack_noMembers levels
  | sequence hv _ ih => exact readsBack_sequence hv ih
  | record hnames _ ih => exact readsBack_record hnames ih

/-- Plain data is the same document as itself. -/
theorem IsPlain.same {levels : Nat} {v : Value} (h : IsPlain levels v) : SameDocument v v := by
  obtain ⟨-, w, -, hsame, -⟩ := h.readsBack
  exact hsame.symm.trans hsame

end LintGateway.Json
