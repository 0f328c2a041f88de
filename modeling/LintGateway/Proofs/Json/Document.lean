import LintGateway.Json.Reader
import LintGateway.Text.Blank

/-!
# What the JSON reader returns

A value that was read from a JSON text is a document: its sequences are lists and never tuples, it
holds no calendar value, and no object in it has two members of one name. The reader goes down with
the nesting, so the proof does too; inside one container it goes along the items, and the invariant
carried there is that everything read so far is a document.

A text of blanks alone is no JSON text, although the blanks of JSON are fewer than those of Unicode:
no value begins with a blank.
-/

set_option autoImplicit false

namespace LintGateway.Json

/-- A value that a JSON text can denote. -/
inductive IsDocument : Value → Prop where
  | null : IsDocument .null
  | bool (b : Bool) : IsDocument (.bool b)
  | int (n : Int) : IsDocument (.int n)
  | float (x : Float) (object : Option Nat) : IsDocument (.float x object)
  | text (s : String) : IsDocument (.text s)
  | list {items : List Value} (h : ∀ v ∈ items, IsDocument v) : IsDocument (.list items)
  | record {members : Value.Table} (hnames : Members.names members |>.Nodup)
      (h : ∀ m ∈ members, IsDocument m.2) : IsDocument (.record members)

/-- The items of a list in a document are documents. -/
theorem IsDocument.of_list {items : List Value} (h : IsDocument (.list items)) :
    ∀ v ∈ items, IsDocument v := by
  cases h with
  | list h => exact h

/-- The members of an object in a document have different names and are documents. -/
theorem IsDocument.of_record {t : Value.Table} (h : IsDocument (.record t)) :
    (Members.names t).Nodup ∧ ∀ m ∈ t, IsDocument m.2 := by
  cases h with
  | record hnames h => exact ⟨hnames, h⟩

/-- What is found in an object of a document is a document. -/
theorem IsDocument.of_get? {t : Value.Table} (h : IsDocument (.record t)) {name : String}
    {v : Value} (hv : Members.get? t name = some v) : IsDocument v := by
  obtain ⟨hnames, hmembers⟩ := h.of_record
  exact hmembers (name, v) ((Members.get?_eq_some_iff hnames name v).mp hv)

/-- A sequence in a document is a list. -/
theorem IsDocument.not_tuple {items : List Value} : ¬ IsDocument (.tuple items) := by
  intro h
  cases h

/-! ## Reading gives documents -/

/-- Setting a member of an object to a document leaves documents. -/
theorem isDocument_put {t : Value.Table} (h : IsDocument (.record t)) (name : String) {v : Value}
    (hv : IsDocument v) : IsDocument (.record (Members.put t name v)) := by
  obtain ⟨hnames, hmembers⟩ := h.of_record
  have hnew := Members.nodup_names_put hnames name v
  refine .record hnew ?_
  rintro ⟨n, w⟩ hm
  have hget := (Members.get?_eq_some_iff hnew n w).mpr hm
  rw [Members.get?_put] at hget
  split at hget
  · simp only [Option.some.injEq] at hget
    exact hget ▸ hv
  · exact hmembers (n, w) ((Members.get?_eq_some_iff hnames n w).mp hget)

/-- A number is a document. -/
theorem isDocument_of_readNumber {negative : Bool} {cs rest : List Char} {v : Value}
    (h : readNumber negative cs = some (v, rest)) : IsDocument v := by
  simp only [readNumber, Option.bind_eq_bind, Option.bind_eq_some_iff] at h
  obtain ⟨⟨whole, cs⟩, -, h⟩ := h
  split at h
  · cases h
  · split at h
    · cases h
    · simp only [Option.bind_eq_some_iff] at h
      obtain ⟨⟨fraction, cs⟩, -, ⟨exponent, cs⟩, -, h⟩ := h
      split at h
      · simp only [Option.pure_def, Option.some.injEq, Prod.mk.injEq] at h
        exact h.1 ▸ .int _
      · simp only [Option.pure_def, Option.some.injEq, Prod.mk.injEq] at h
        exact h.1 ▸ .float _ _

/-- A value that is neither an array nor an object is a document. -/
theorem isDocument_of_readScalar {cs rest : List Char} {v : Value}
    (h : readScalar cs = some (v, rest)) : IsDocument v := by
  unfold readScalar at h
  split at h
  · simp only [Option.map_eq_some_iff, Prod.mk.injEq] at h
    obtain ⟨r, -, rfl, -⟩ := h
    exact .text _
  · simp only [Option.map_eq_some_iff, Prod.mk.injEq] at h
    obtain ⟨r, -, rfl, -⟩ := h
    exact .float _ _
  · exact isDocument_of_readNumber h
  · simp only [Option.map_eq_some_iff, Prod.mk.injEq] at h
    obtain ⟨r, -, rfl, -⟩ := h
    exact .null
  · simp only [Option.map_eq_some_iff, Prod.mk.injEq] at h
    obtain ⟨r, -, rfl, -⟩ := h
    exact .bool true
  · simp only [Option.map_eq_some_iff, Prod.mk.injEq] at h
    obtain ⟨r, -, rfl, -⟩ := h
    exact .bool false
  · simp only [Option.map_eq_some_iff, Prod.mk.injEq] at h
    obtain ⟨r, -, rfl, -⟩ := h
    exact .float _ _
  · simp only [Option.map_eq_some_iff, Prod.mk.injEq] at h
    obtain ⟨r, -, rfl, -⟩ := h
    exact .float _ _
  · exact isDocument_of_readNumber h

variable {readOne : List Char → Option (Value × List Char)}

/-- The items of an array are documents when each item that is read is one. -/
theorem isDocument_of_readItems
    (hone : ∀ cs v rest, readOne cs = some (v, rest) → IsDocument v) (left : Nat)
    {read items : List Value} {cs rest : List Char} (hread : ∀ v ∈ read, IsDocument v)
    (h : readItems readOne left read cs = some (items, rest)) : ∀ v ∈ items, IsDocument v := by
  induction left generalizing read cs with
  | zero => cases h
  | succ left ih =>
    simp only [readItems, Option.bind_eq_bind, Option.bind_eq_some_iff] at h
    obtain ⟨⟨v, cs⟩, hv, h⟩ := h
    have hnow : ∀ w ∈ v :: read, IsDocument w := by
      intro w hw
      rcases List.mem_cons.mp hw with rfl | hw
      · exact hone _ _ _ hv
      · exact hread w hw
    split at h
    · exact ih hnow h
    · simp only [Option.pure_def, Option.some.injEq, Prod.mk.injEq] at h
      intro w hw
      rw [← h.1, List.mem_reverse] at hw
      exact hnow w hw
    · cases h

/-- An object is a document when each member value that is read is one. -/
theorem isDocument_of_readMembers
    (hone : ∀ cs v rest, readOne cs = some (v, rest) → IsDocument v) (left : Nat)
    {read members : Value.Table} {cs rest : List Char} (hread : IsDocument (.record read))
    (h : readMembers readOne left read cs = some (members, rest)) :
    IsDocument (.record members) := by
  induction left generalizing read cs with
  | zero => cases h
  | succ left ih =>
    unfold readMembers at h
    split at h
    · simp only [Option.bind_eq_bind, Option.bind_eq_some_iff] at h
      obtain ⟨⟨name, cs⟩, -, h⟩ := h
      split at h
      · simp only [Option.bind_eq_some_iff] at h
        obtain ⟨⟨v, cs⟩, hv, h⟩ := h
        have hnow := isDocument_put hread name (hone _ _ _ hv)
        split at h
        · exact ih hnow h
        · simp only [Option.pure_def, Option.some.injEq, Prod.mk.injEq] at h
          exact h.1 ▸ hnow
        · cases h
      · cases h
    · cases h

/-- Every value that is read is a document. -/
theorem isDocument_of_readValue (most levels : Nat) {cs rest : List Char} {v : Value}
    (h : readValue most levels cs = some (v, rest)) : IsDocument v := by
  induction levels using Nat.strongRecOn generalizing cs rest v with
  | ind levels ih =>
    unfold readValue at h
    split at h
    · split at h
      · cases h
        exact .list (by simp)
      · cases h
      · rename_i inner _
        simp only [Option.map_eq_some_iff, Prod.mk.injEq] at h
        obtain ⟨⟨items, rest⟩, hitems, rfl, -⟩ := h
        have hone : ∀ cs v rest, readValue most inner cs = some (v, rest) → IsDocument v :=
          fun _ _ _ hv => ih inner (Nat.lt_succ_self inner) hv
        exact .list (isDocument_of_readItems hone most (by simp) hitems)
    · split at h
      · cases h
        exact .record (by simp [Members.names]) (by simp)
      · cases h
      · rename_i inner _
        simp only [Option.map_eq_some_iff, Prod.mk.injEq] at h
        obtain ⟨⟨members, rest⟩, hmembers, rfl, -⟩ := h
        have hone : ∀ cs v rest, readValue most inner cs = some (v, rest) → IsDocument v :=
          fun _ _ _ hv => ih inner (Nat.lt_succ_self inner) hv
        exact isDocument_of_readMembers hone most
          (.record (by simp [Members.names]) (by simp)) hmembers
    · exact isDocument_of_readScalar h

/-- The value of a JSON text is a document. -/
theorem isDocument_of_read? {s : String} {v : Value} (h : read? s = some v) : IsDocument v := by
  unfold read? readWithin? at h
  split at h
  · rename_i w rest hread
    split at h
    · cases h
      exact isDocument_of_readValue _ _ hread
    · cases h
  · cases h

/-! ## Blanks are no JSON text -/

/-- No digit is blank. -/
theorem isDigit_of_isBlank {c : Char} (h : Text.isBlank c = true) : c.isDigit = false := by
  rw [Bool.eq_false_iff]
  intro hdigit
  simp only [Char.isDigit, Bool.and_eq_true, decide_eq_true_eq, ge_iff_le, UInt32.le_iff_toNat_le]
    at hdigit
  simp only [Text.isBlank, Char.toNat, Bool.or_eq_true, Bool.and_eq_true, decide_eq_true_eq,
    beq_iff_eq] at h
  have hlow : 48 ≤ c.val.toNat := hdigit.1
  have hhigh : c.val.toNat ≤ 57 := hdigit.2
  omega

/-- No number begins with a blank. -/
theorem readNumber_eq_none_of_blank (negative : Bool) {cs : List Char}
    (h : ∀ c ∈ cs.head?, Text.isBlank c = true) : readNumber negative cs = none := by
  have hdigits : readDigits cs = none := by
    cases cs with
    | nil => rfl
    | cons c cs =>
      have hc : c.isDigit = false := isDigit_of_isBlank (h c (by simp))
      simp [readDigits, hc]
  simp [readNumber, hdigits]

/-- No value begins with a blank. -/
theorem readValue_eq_none_of_blank (most levels : Nat) {cs : List Char}
    (h : ∀ c ∈ cs.head?, Text.isBlank c = true) : readValue most levels cs = none := by
  have hnot : ∀ c rest, cs = c :: rest → Text.isBlank c = true := by
    rintro c rest rfl
    exact h c (by simp)
  have hscalar : readScalar cs = none := by
    unfold readScalar
    split
    case h_9 => exact readNumber_eq_none_of_blank false h
    -- in every other case the text begins with a character that is not blank
    all_goals exact absurd (hnot _ _ rfl) (by decide)
  unfold readValue
  split
  · exact absurd (hnot _ _ rfl) (by decide)
  · exact absurd (hnot _ _ rfl) (by decide)
  · exact hscalar

/-- A text of blanks alone is no JSON text. -/
theorem read?_eq_none_of_blank {s : String} (h : Text.isBlankText s = true) : read? s = none := by
  have hstart : ∀ c ∈ (skipSpace s.toList).head?, Text.isBlank c = true := by
    intro c hc
    have hmem : c ∈ s.toList :=
      (List.dropWhile_suffix isSpace).subset (List.mem_of_mem_head? hc)
    exact List.all_eq_true.mp h c hmem
  unfold read? readWithin?
  rw [readValue_eq_none_of_blank _ _ hstart]

end LintGateway.Json
