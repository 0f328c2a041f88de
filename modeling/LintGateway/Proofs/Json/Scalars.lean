import LintGateway.Json.Reader
import LintGateway.Json.Writer
import Mathlib.Tactic.SplitIfs

/-!
# Written strings and integers read back

A string is read one character at a time, and each character is written so that exactly its own form
is taken off the text. An integer ends where its digits end, so what follows it must not go on with
a number; inside a document it is followed by a comma, a closing bracket or the end.
-/

set_option autoImplicit false

namespace LintGateway.Json

/-! ## Strings -/

/-- A hexadecimal digit has its value. -/
theorem hexValue?_digitChar : ∀ d < 16, Decimal.hexValue? (Nat.digitChar d) = some d := by
  decide

/-- The four hexadecimal digits of a number, one by one. -/
theorem hexDigits_four (n : Nat) :
    Text.hexDigits 4 n = [Nat.digitChar (n / 16 / 16 / 16 % 16), Nat.digitChar (n / 16 / 16 % 16),
      Nat.digitChar (n / 16 % 16), Nat.digitChar (n % 16)] := rfl

/-- Four hexadecimal digits are read as the number that they were made of. -/
theorem hexUnit_digits {n : Nat} (h : n < 0x10000) :
    hexUnit (Nat.digitChar (n / 16 / 16 / 16 % 16)) (Nat.digitChar (n / 16 / 16 % 16))
      (Nat.digitChar (n / 16 % 16)) (Nat.digitChar (n % 16)) = some n := by
  have hvalue : ∀ m, Decimal.hexValue? (Nat.digitChar (m % 16)) = some (m % 16) := by
    intro m
    exact hexValue?_digitChar (m % 16) (Nat.mod_lt m (by decide))
  have hsum : ((n / 16 / 16 / 16 % 16 * 16 + n / 16 / 16 % 16) * 16 + n / 16 % 16) * 16 + n % 16 =
      n := by omega
  simp [hexUnit, hvalue, hsum]

/-- A character that is neither quote, backslash nor control stands for itself. -/
theorem readString_plain {c : Char} (hquote : c ≠ '"') (hslash : c ≠ '\\')
    (hcontrol : ¬ c.toNat < 0x20) (read rest : List Char) :
    readString read (c :: rest) = readString (c :: read) rest := by
  rw [readString.eq_def]
  split
  case h_1 heq => cases heq
  case h_2 heq => exact absurd (List.cons.inj heq).1 hquote
  case h_3 heq => exact absurd (List.cons.inj heq).1 hslash
  case h_4 heq => exact absurd (List.cons.inj heq).1 hslash
  case h_5 heq =>
    obtain ⟨rfl, rfl⟩ := List.cons.inj heq
    rw [if_neg hcontrol]

/-- The form of a character is taken off the text as that character. -/
theorem readString_escapeChar (read : List Char) (c : Char) (rest : List Char) :
    readString read (escapeChar c ++ rest) = readString (c :: read) rest := by
  unfold escapeChar
  by_cases hquote : c = '"'
  · subst hquote; rfl
  rw [if_neg hquote]
  by_cases hslash : c = '\\'
  · subst hslash; rfl
  rw [if_neg hslash]
  by_cases hfeed : c = '\n'
  · subst hfeed; rfl
  rw [if_neg hfeed]
  by_cases hreturn : c = '\r'
  · subst hreturn; rfl
  rw [if_neg hreturn]
  by_cases htab : c = '\t'
  · subst htab; rfl
  rw [if_neg htab]
  by_cases hform : c = '\x0c'
  · subst hform; rfl
  rw [if_neg hform]
  by_cases hback : c = '\x08'
  · subst hback; rfl
  rw [if_neg hback]
  by_cases hcontrol : c.toNat < 0x20
  · -- the other controls have no letter of their own and are written by their code point
    have hunit := hexUnit_digits (show c.toNat < 0x10000 by omega)
    have hscalar : (c.toNat < 0xd800 || 0xdfff < c.toNat) = true := by
      rw [Bool.or_eq_true, decide_eq_true_eq]
      exact Or.inl (by omega)
    rw [if_pos hcontrol, hexDigits_four]
    show readString read ('\\' :: 'u' :: _ :: _ :: _ :: _ :: rest) = _
    rw [readString, hunit]
    simp only [hscalar, if_true, Char.ofNat_toNat]
  · rw [if_neg hcontrol]
    exact readString_plain hquote hslash hcontrol read rest

/-- The forms of characters up to a quote are read as these characters. -/
theorem readString_flatMap (read cs rest : List Char) :
    readString read (cs.flatMap escapeChar ++ '"' :: rest) =
      some (String.ofList (read.reverse ++ cs), rest) := by
  induction cs generalizing read with
  | nil =>
    rw [List.append_nil]
    rfl
  | cons c cs ih =>
    rw [List.flatMap_cons, List.append_assoc, readString_escapeChar, ih, List.reverse_cons,
      List.append_assoc, List.singleton_append]

/-- What follows the opening quote of a written string is read as that string. -/
theorem readString_written (s : String) (rest : List Char) :
    readString [] (s.toList.flatMap escapeChar ++ '"' :: rest) = some (s, rest) := by
  rw [readString_flatMap, List.reverse_nil, List.nil_append, String.ofList_toList]

/-- A written text followed by another begins with a quote. -/
theorem writeString_append (s : String) (rest : List Char) :
    writeString s ++ rest = '"' :: (s.toList.flatMap escapeChar ++ '"' :: rest) := by
  simp [writeString]

/-- A written text is taken off as the text. -/
theorem readScalar_writeString (s : String) (rest : List Char) :
    readScalar (writeString s ++ rest) = some (.text s, rest) := by
  rw [writeString_append]
  show (readString [] _).map _ = _
  rw [readString_written]
  rfl

/-- The form of a character has no line feed. -/
theorem newline_not_mem_escapeChar (c : Char) : '\n' ∉ escapeChar c := by
  have hdigit : ∀ n, '\n' ≠ Nat.digitChar (n % 16) := by
    intro n
    have hall : ∀ d < 16, '\n' ≠ Nat.digitChar d := by decide
    exact hall (n % 16) (Nat.mod_lt n (by decide))
  unfold escapeChar
  split_ifs with _ _ hfeed
  all_goals try decide
  · rw [hexDigits_four]
    simp [hdigit]
  · simpa using Ne.symm hfeed

/-- A written text is on one line. -/
theorem newline_not_mem_writeString (s : String) : '\n' ∉ writeString s := by
  simp [writeString, newline_not_mem_escapeChar]

/-! ## Integers -/

/-- A text that cannot go on with a number that stands before it. -/
def Closes (rest : List Char) : Prop :=
  ∀ c ∈ rest.head?, c.isDigit = false ∧ c ≠ '.' ∧ c ≠ 'e' ∧ c ≠ 'E'

/-- A text closes a number by its first character. -/
theorem closes_cons {c : Char} (h : c.isDigit = false ∧ c ≠ '.' ∧ c ≠ 'e' ∧ c ≠ 'E')
    (rest : List Char) : Closes (c :: rest) := by
  intro d hd
  obtain rfl := Option.some.inj hd
  exact h

/-- Digits are read up to the first character that is none. -/
theorem readDigits_append {digits rest : List Char} (hdigits : ∀ c ∈ digits, c.isDigit = true)
    (hne : digits ≠ []) (hrest : Closes rest) :
    readDigits (digits ++ rest) = some (digits, rest) := by
  have hstop : rest.takeWhile Char.isDigit = [] ∧ rest.dropWhile Char.isDigit = rest := by
    cases rest with
    | nil => exact ⟨rfl, rfl⟩
    | cons c rest =>
      have hc : c.isDigit = false := (hrest c rfl).1
      simp [hc]
  have htake : (digits ++ rest).takeWhile Char.isDigit = digits := by
    rw [List.takeWhile_append_of_pos hdigits, hstop.1, List.append_nil]
  have hdrop : (digits ++ rest).dropWhile Char.isDigit = rest := by
    rw [List.dropWhile_append_of_pos hdigits, hstop.2]
  unfold readDigits
  rw [htake, hdrop]
  cases digits with
  | nil => exact absurd rfl hne
  | cons d digits => rfl

/-- A number that is closed has no fraction. -/
theorem readFraction_closes {rest : List Char} (h : Closes rest) :
    readFraction rest = some ([], rest) := by
  unfold readFraction
  split
  · exact absurd rfl (h '.' rfl).2.1
  · rfl

/-- A number that is closed has no exponent. -/
theorem readExponent_closes {rest : List Char} (h : Closes rest) :
    readExponent rest = some (none, rest) := by
  unfold readExponent
  split
  · exact absurd rfl (h 'e' rfl).2.2.1
  · exact absurd rfl (h 'E' rfl).2.2.2
  · rfl

/-- The decimal digits of a number are digits. -/
theorem isDigit_of_mem_toDigits {n : Nat} : ∀ c ∈ Nat.toDigits 10 n, c.isDigit = true :=
  fun _ hc => Nat.isDigit_of_mem_toDigits (by decide) (by decide) hc

/-- The digits of a number begin with a zero only where it is the one digit. -/
theorem length_toDigits_of_zero (n : Nat) (h : (Nat.toDigits 10 n).head? = some '0') :
    (Nat.toDigits 10 n).length ≤ 1 := by
  induction n using Nat.strongRecOn with
  | ind n ih =>
    by_cases hn : n < 10
    · rw [Nat.toDigits_of_lt_base hn]
      exact Nat.le_refl 1
    · have hsplit : Nat.toDigits 10 n = Nat.toDigits 10 (n / 10) ++ [(n % 10).digitChar] := by
        rw [Nat.toDigits_eq_if (by decide), if_neg hn]
      have hhead : (Nat.toDigits 10 (n / 10)).head? = some '0' := by
        rw [hsplit, List.head?_append, List.head?_eq_some_head Nat.toDigits_ne_nil] at h
        rw [List.head?_eq_some_head Nat.toDigits_ne_nil]
        exact h
      have hshort := ih (n / 10) (by omega) hhead
      -- one digit that is zero denotes zero, but the tenth part of `n` is not zero
      have hzero : Nat.toDigits 10 (n / 10) = ['0'] := by
        cases hdigits : Nat.toDigits 10 (n / 10) with
        | nil => exact absurd hdigits Nat.toDigits_ne_nil
        | cons d more =>
          rw [hdigits] at hhead hshort
          obtain rfl := Option.some.inj hhead
          simp only [List.length_cons] at hshort
          rw [List.length_eq_zero_iff.mp (show more.length = 0 by omega)]
      have hvalue : n / 10 = 0 := by
        have hback := @Nat.ofDigitChars_ten_toDigits (n / 10)
        rw [hzero] at hback
        exact hback.symm
      omega

/-- The digits of a number that is not too long are read as that number. -/
theorem readNumber_toDigits {n : Nat} (h : (Nat.toDigits 10 n).length ≤ Decimal.maxDigits)
    (negative : Bool) {rest : List Char} (hrest : Closes rest) :
    readNumber negative (Nat.toDigits 10 n ++ rest) =
      some (.int (if negative then -(n : Int) else n), rest) := by
  have hread := readDigits_append (isDigit_of_mem_toDigits (n := n)) Nat.toDigits_ne_nil hrest
  have hshort : ¬ Decimal.maxDigits < (Nat.toDigits 10 n).length := Nat.not_lt.mpr h
  have hfirst : ¬ (1 < (Nat.toDigits 10 n).length ∧ (Nat.toDigits 10 n).head? = some '0') := by
    rintro ⟨hlong, hzero⟩
    have hle := length_toDigits_of_zero n hzero
    omega
  have hvalue : Decimal.ofDigits (Nat.toDigits 10 n) = n := Nat.ofDigitChars_ten_toDigits
  simp only [readNumber, hread, Option.bind_eq_bind, Option.bind_some, if_neg hshort, if_neg hfirst,
    readFraction_closes hrest, readExponent_closes hrest, hvalue]
  rfl

/-- An integer that can be written has no more digits than are read. -/
theorem length_toDigits_of_isWritable {n : Int} (h : Decimal.isWritable n = true) :
    (Nat.toDigits 10 n.natAbs).length ≤ Decimal.maxDigits := by
  have hpos : 0 < Decimal.maxDigits := by decide
  unfold Decimal.isWritable at h
  -- the bound is kept abstract, since its power of ten is too large to compute
  generalize Decimal.maxDigits = most at h hpos ⊢
  exact (Nat.length_toDigits_le_iff (by decide) hpos).mpr (of_decide_eq_true h)

/-- A text that begins with a digit is read as a number. -/
theorem readScalar_of_digit {c : Char} (h : c.isDigit = true) (cs : List Char) :
    readScalar (c :: cs) = readNumber false (c :: cs) := by
  unfold readScalar
  split
  case h_9 => rfl
  -- in every other case the text begins with a character that is no digit
  all_goals
    rename_i heq
    rw [(List.cons.inj heq).1] at h
    exact absurd h (by decide)

/-- A minus sign before a digit begins a negative number. -/
theorem readScalar_of_minus {c : Char} (h : c.isDigit = true) (cs : List Char) :
    readScalar ('-' :: c :: cs) = readNumber true (c :: cs) := by
  have hne : c ≠ 'I' := by
    rintro rfl
    exact absurd h (by decide)
  unfold readScalar
  split
  all_goals simp_all

/-- A natural number is written with its digits. -/
theorem toList_toString_ofNat (n : Nat) : (toString (n : Int)).toList = Nat.toDigits 10 n :=
  Nat.toList_repr

/-- A negative number is written with a minus sign and its digits. -/
theorem toList_toString_negSucc (n : Nat) :
    (toString (Int.negSucc n)).toList = '-' :: Nat.toDigits 10 (n + 1) := by
  show ("-" ++ (n + 1).repr).toList = _
  rw [String.toList_append, Nat.toList_repr]
  rfl

/-- The digits of an integer that is not too long, with its sign, are read as that integer. -/
theorem readScalar_toString {n : Int} (h : Decimal.isWritable n = true) {rest : List Char}
    (hrest : Closes rest) :
    readScalar ((toString n).toList ++ rest) = some (.int n, rest) := by
  have hsize := length_toDigits_of_isWritable h
  have hdigits : ∀ m, ∃ d ds, Nat.toDigits 10 m = d :: ds ∧ d.isDigit = true := by
    intro m
    obtain ⟨d, ds, hds⟩ := List.exists_cons_of_ne_nil (Nat.toDigits_ne_nil (n := m) (b := 10))
    exact ⟨d, ds, hds, isDigit_of_mem_toDigits d (hds ▸ List.mem_cons_self)⟩
  cases n with
  | ofNat m =>
    have hread := readNumber_toDigits (n := m) hsize false hrest
    obtain ⟨d, ds, hds, hd⟩ := hdigits m
    rw [show Int.ofNat m = (m : Int) from rfl, toList_toString_ofNat]
    rw [hds, List.cons_append] at hread ⊢
    rw [readScalar_of_digit hd, hread]
    rfl
  | negSucc m =>
    have hread := readNumber_toDigits (n := m + 1) hsize true hrest
    obtain ⟨d, ds, hds, hd⟩ := hdigits (m + 1)
    rw [toList_toString_negSucc, List.cons_append]
    rw [hds, List.cons_append] at hread ⊢
    rw [readScalar_of_minus hd, hread]
    rfl

end LintGateway.Json
