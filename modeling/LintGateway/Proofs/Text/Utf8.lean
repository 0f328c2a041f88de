import LintGateway.Text.Utf8
import Mathlib.Order.Bounds.Basic

/-!
# Reading UTF-8

Reading takes one character after the other. The invariant is that the position stands right after
the bytes of the characters read so far, so the next one is the first character of what is left
(`readFrom_append`). The UTF-8 form of a text is therefore read to its end, and in any other byte
string reading stops at the end of the longest start that is valid.
-/

set_option autoImplicit false

namespace LintGateway.Text

/-- After the code of some characters the next one is read. -/
theorem utf8DecodeChar?_after (before : List Char) (c : Char) (after : List Char) :
    (before ++ c :: after).utf8Encode.utf8DecodeChar? before.utf8Encode.size = some c := by
  rw [ByteArray.utf8DecodeChar?_eq_utf8DecodeChar?_extract, List.utf8Encode_append,
    ByteArray.extract_append_eq_right rfl ByteArray.size_append]
  exact List.utf8DecodeChar?_utf8Encode_cons

/-- At the end of the bytes no character is read. -/
theorem utf8DecodeChar?_at_end (bytes : ByteArray) : bytes.utf8DecodeChar? bytes.size = none := by
  rw [Option.eq_none_iff_forall_ne_some]
  intro c hc
  have hsome := Option.isSome_of_mem (Option.mem_def.mpr hc)
  have hlt := ByteArray.lt_size_of_isSome_utf8DecodeChar? hsome
  omega

/-- A character added at the end adds the size of its code. -/
theorem size_utf8Encode_concat (before : List Char) (c : Char) :
    (before ++ [c]).utf8Encode.size = before.utf8Encode.size + c.utf8Size := by
  rw [List.utf8Encode_append, ByteArray.size_append, List.utf8Encode_singleton,
    List.size_toByteArray, String.length_utf8EncodeChar]

/-- From the end of some characters on the next ones are read, whatever bytes follow. -/
theorem readFrom_append (after before : List Char) (rest : ByteArray) (read : Array Char) :
    readFrom ((before ++ after).utf8Encode ++ rest) before.utf8Encode.size read =
      readFrom ((before ++ after).utf8Encode ++ rest) (before ++ after).utf8Encode.size
        (read ++ after.toArray) := by
  induction after generalizing before read with
  | nil => simp
  | cons c after ih =>
    have hnext := ByteArray.utf8DecodeChar?_append_eq_some (utf8DecodeChar?_after before c after) rest
    have hrest := ih (before ++ [c]) (read.push c)
    rw [size_utf8Encode_concat, List.append_assoc, List.singleton_append] at hrest
    rw [readFrom]
    split
    · rename_i d hd
      rw [hnext] at hd
      obtain rfl := Option.some.inj hd
      rw [hrest]
      simp
    · rename_i hnone
      rw [hnext] at hnone
      cases hnone

/-- Reading does not go on where no character is well formed. -/
theorem readFrom_of_none {bytes : ByteArray} {i : Nat} (h : bytes.utf8DecodeChar? i = none)
    (read : Array Char) : readFrom bytes i read = (read, i) := by
  rw [readFrom]
  split
  · rename_i c hc
    rw [h] at hc
    cases hc
  · rfl

/-- The bytes of a text are those of its characters. -/
theorem toUTF8_eq_utf8Encode (s : String) : s.toUTF8 = s.toList.utf8Encode := by
  rw [String.toUTF8_eq_toByteArray, ← String.toByteArray_ofList, String.ofList_toList]

/-- The bytes of a text are read as that text. -/
theorem decode_toUTF8 (s : String) : decode s.toUTF8 = .ok s := by
  have hread := readFrom_append s.toList [] .empty #[]
  rw [List.nil_append, List.utf8Encode_nil, ByteArray.append_empty, ByteArray.size_empty,
    readFrom_of_none (utf8DecodeChar?_at_end _)] at hread
  rw [toUTF8_eq_utf8Encode]
  unfold decode
  rw [hread]
  simp

/-- Every byte string is the UTF-8 form of some characters and then bytes that no character starts.
-/
theorem exists_split (bytes : ByteArray) :
    ∃ (cs : List Char) (rest : ByteArray),
      bytes = cs.utf8Encode ++ rest ∧ rest.utf8DecodeChar? 0 = none := by
  induction hsize : bytes.size using Nat.strongRecOn generalizing bytes with
  | ind size ih =>
    cases hfirst : bytes.utf8DecodeChar? 0 with
    | none => exact ⟨[], bytes, by simp, hfirst⟩
    | some c =>
      have hbytes := ByteArray.eq_of_utf8DecodeChar?_eq_some hfirst
      have hfits := ByteArray.le_size_of_utf8DecodeChar?_eq_some hfirst
      have hpos := c.utf8Size_pos
      have hshorter : (bytes.extract c.utf8Size bytes.size).size < size := by
        simp only [ByteArray.size_extract]
        omega
      obtain ⟨cs, rest, hsplit, hrest⟩ := ih _ hshorter _ rfl
      refine ⟨c :: cs, rest, ?_, hrest⟩
      rw [List.utf8Encode_cons, List.utf8Encode_singleton, ByteArray.append_assoc, ← hsplit]
      exact hbytes

/-- Reading goes on from where it starts. -/
theorem le_readFrom (bytes : ByteArray) (i : Nat) (read : Array Char) :
    i ≤ (readFrom bytes i read).2 := by
  fun_induction readFrom bytes i read with
  | case1 i read c _ ih => omega
  | case2 i read _ => exact le_rfl

/-- Reading from the start of a byte string stops where its longest valid start ends. -/
theorem isGreatest_readFrom (bytes : ByteArray) :
    IsGreatest {n | n ≤ bytes.size ∧ (bytes.extract 0 n).IsValidUTF8}
      (readFrom bytes 0 #[]).2 := by
  constructor
  · obtain ⟨cs, rest, rfl, hrest⟩ := exists_split bytes
    have hstop : (cs.utf8Encode ++ rest).utf8DecodeChar? cs.utf8Encode.size = none := by
      rw [ByteArray.utf8DecodeChar?_eq_utf8DecodeChar?_extract,
        ByteArray.extract_append_eq_right rfl ByteArray.size_append, hrest]
    have hread := readFrom_append cs [] rest #[]
    rw [List.nil_append, List.utf8Encode_nil, ByteArray.size_empty, readFrom_of_none hstop] at hread
    rw [hread]
    refine ⟨by simp [ByteArray.size_append], ?_⟩
    rw [ByteArray.extract_append_eq_left rfl]
    exact ByteArray.isValidUTF8_utf8Encode
  · rintro n ⟨hn, ⟨cs, hcs⟩⟩
    have hbytes : bytes = cs.utf8Encode ++ bytes.extract n bytes.size := by
      rw [← hcs, ← ByteArray.extract_eq_extract_append_extract n (Nat.zero_le n) hn,
        ByteArray.extract_zero_size]
    have hlength : cs.utf8Encode.size = n := by
      rw [← hcs, ByteArray.size_extract]
      omega
    have hread := readFrom_append cs [] (bytes.extract n bytes.size) #[]
    rw [List.nil_append, ← hbytes, List.utf8Encode_nil, ByteArray.size_empty, hlength] at hread
    rw [hread]
    exact le_readFrom bytes n _

/-- A byte string that is not UTF-8 is refused at the end of its longest valid start. -/
theorem decode_of_not_valid {bytes : ByteArray} (h : ¬ bytes.IsValidUTF8) :
    ∃ n, IsGreatest {n | n ≤ bytes.size ∧ (bytes.extract 0 n).IsValidUTF8} n ∧
      decode bytes = .error n := by
  have hgreatest := isGreatest_readFrom bytes
  have hstop : (readFrom bytes 0 #[]).2 ≠ bytes.size := by
    intro hend
    have hvalid := hgreatest.1.2
    rw [hend, ByteArray.extract_zero_size] at hvalid
    exact h hvalid
  refine ⟨_, hgreatest, ?_⟩
  unfold decode
  simp only [if_neg hstop]

end LintGateway.Text
