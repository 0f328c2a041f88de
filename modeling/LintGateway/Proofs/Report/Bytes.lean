import LintGateway.Proofs.Report.Schema
import LintGateway.Proofs.Text.Utf8

/-!
# Reports as bytes and as text

The linter writes bytes, and a report may also be at hand as a text. Bytes that are the UTF-8 form of
a text are the same report as the text; all others are refused where their longest valid start ends.
Byte order marks in front of a text that is not blank have no say (`ofBytes_agrees`).

The blank test comes before the marks are dropped, and a mark is not blank. So a text that is not
blank stays so behind any number of marks, and what is read of it is the same text in the end.
-/

set_option autoImplicit false

namespace LintGateway.Report

/-- A text and its bytes are one report. -/
theorem ofBytes_toUTF8 (s : String) : Report.ofBytes s.toUTF8 = Report.ofText s := by
  unfold Report.ofBytes
  rw [Text.decode_toUTF8]

/-- A text with something before it is not blank when it was not. -/
theorem isBlankText_append_of_not_blank {s : String} (before : String)
    (h : Text.isBlankText s = false) : Text.isBlankText (before ++ s) = false := by
  unfold Text.isBlankText at h ⊢
  rw [String.toList_append, List.all_append, h, Bool.and_false]

/-- Marks in front of a text that is not blank have no say. -/
theorem ofText_marks_append {s : String} (h : Text.isBlankText s = false) (count : Nat) :
    ofText (marks count ++ s) = ofText s := by
  unfold ofText
  simp only [h, isBlankText_append_of_not_blank (marks count) h, dropMarks_marks_append]

/-- A byte string that is the UTF-8 form of a text is the same report as the text. Any other one is
refused, with the length of its longest start that is valid UTF-8 as the place. Byte order marks in
front of a text that is not blank change neither findings nor error. -/
theorem ofBytes_agrees (bytes : ByteArray) (s : String) (count : Nat) :
    (bytes = s.toUTF8 → ofBytes bytes = ofText s) ∧
      (¬ bytes.IsValidUTF8 →
        ∃ n, IsGreatest {n | n ≤ bytes.size ∧ (bytes.extract 0 n).IsValidUTF8} n ∧
          ofBytes bytes = .error
            { reason := "report is not valid utf-8"
              location := "byte " ++ toString n
              fragment := excerpt (Text.quotedBytes (bytes.extract n (n + 16))) }) ∧
        (Text.isBlankText s = false → ofText (marks count ++ s) = ofText s) := by
  refine ⟨?_, ?_, ?_⟩
  · rintro rfl
    exact ofBytes_toUTF8 s
  · intro hinvalid
    obtain ⟨n, hgreatest, hdecode⟩ := Text.decode_of_not_valid hinvalid
    refine ⟨n, hgreatest, ?_⟩
    unfold ofBytes
    rw [hdecode]
    rfl
  · intro hblank
    exact ofText_marks_append hblank count

/-- An opening bracket and a byte that starts no character. -/
def brokenBytes : ByteArray := ⟨#[0x5b, 0xff]⟩

/-- An empty report stays one as bytes and behind two marks, and the broken bytes are refused after
the bracket. -/
theorem ofBytes_agrees_brokenBytes :
    ofBytes "[]".toUTF8 = ofText "[]" ∧ ofText (marks 2 ++ "[]") = ofText "[]" ∧
      IsGreatest {n | n ≤ brokenBytes.size ∧ (brokenBytes.extract 0 n).IsValidUTF8} 1 ∧
      ofBytes brokenBytes = .error ⟨"report is not valid utf-8", "byte 1", "b'\\xff'"⟩ := by
  have hbytes := (ofBytes_agrees "[]".toUTF8 "[]" 2).1 rfl
  have hmarks := (ofBytes_agrees "[]".toUTF8 "[]" 2).2.2 (by decide)
  obtain ⟨n, hgreatest, herror⟩ := (ofBytes_agrees brokenBytes "[]" 2).2.1 (by decide)
  have hone : IsGreatest
      {n | n ≤ brokenBytes.size ∧ (brokenBytes.extract 0 n).IsValidUTF8} 1 := by
    refine ⟨by decide, ?_⟩
    rintro m ⟨hm, hvalid⟩
    have hsize : m ≠ 2 := by
      rintro rfl
      exact absurd hvalid (by decide)
    have hlength : brokenBytes.size = 2 := rfl
    omega
  have hn : n = 1 := hgreatest.unique hone
  have hfragment : excerpt (Text.quotedBytes (brokenBytes.extract 1 (1 + 16))) = "b'\\xff'" := by
    decide +kernel
  have hlocation : "byte " ++ toString 1 = "byte 1" := rfl
  rw [hn, hfragment, hlocation] at herror
  exact ⟨hbytes, hmarks, hone, herror⟩

end LintGateway.Report
