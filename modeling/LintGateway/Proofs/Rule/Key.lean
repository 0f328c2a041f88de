import LintGateway.Rule.Key
import Mathlib.Data.List.TakeDrop

/-!
# Keys and their texts

A text is cut into a key at its first colon, so it denotes one exactly when there is something on
both sides of that colon, and then the key has this text. A key need not come from a text: one with
a colon in its repository has a text that denotes another key, and one with an empty part has a text
that denotes none. Among the keys that texts denote the text tells them apart.
-/

set_option autoImplicit false

namespace LintGateway.Rule.Key

/-- The first colon of a text stands at position `i`. -/
def FirstColonAt (text : String) (i : Nat) : Prop :=
  text.toList[i]? = some ':' ∧ ∀ j < i, text.toList[j]? ≠ some ':'

/-- A text is what stands before its first colon, the colon, and what stands after it. -/
theorem firstColonAt_iff {text : String} {i : Nat} :
    FirstColonAt text i ↔ ∃ before after : List Char,
      text.toList = before ++ ':' :: after ∧ ':' ∉ before ∧ before.length = i := by
  unfold FirstColonAt
  generalize text.toList = cs
  constructor
  · rintro ⟨hcolon, hfirst⟩
    obtain ⟨hi, hget⟩ := List.getElem?_eq_some_iff.mp hcolon
    refine ⟨cs.take i, cs.drop (i + 1), ?_, ?_, List.length_take_of_le (Nat.le_of_lt hi)⟩
    · rw [← hget, ← List.drop_eq_getElem_cons hi, List.take_append_drop]
    · intro hmem
      obtain ⟨j, hj, hjget⟩ := List.mem_take_iff_getElem.mp hmem
      have hji : j < i := by omega
      exact hfirst j hji (hjget ▸ List.getElem?_eq_getElem _)
  · rintro ⟨before, after, rfl, hnew, rfl⟩
    refine ⟨by simp, fun j hj hcolon => hnew ?_⟩
    rw [List.getElem?_append_left hj] at hcolon
    exact List.mem_of_getElem? hcolon

/-- The text of a key is its repository, a colon and its rule. -/
theorem toList_toText (key : Key) :
    key.toText.toList = key.repository.toList ++ ':' :: key.rule.toList := by
  simp [toText]

/-- A text denotes a key exactly when there is a character before its first colon and one after
it. -/
theorem exists_parse_iff (text : String) :
    (∃ key, parse text = .ok key) ↔
      ∃ i, FirstColonAt text i ∧ i ≠ 0 ∧ i + 1 ≠ text.length := by
  have hlength : ∀ before after : List Char, text.toList = before ++ ':' :: after →
      text.length = before.length + (after.length + 1) := by
    intro before after htext
    rw [← String.length_toList, htext, List.length_append, List.length_cons]
  simp only [parse_eq_ok_iff, firstColonAt_iff]
  constructor
  · rintro ⟨key, rfl, hrepository, hcolon, hrule⟩
    refine ⟨key.repository.toList.length, ⟨_, _, toList_toText key, hcolon, rfl⟩, ?_, ?_⟩
    · simpa using hrepository
    · have hafter : key.rule.toList.length ≠ 0 := by simpa using hrule
      rw [hlength _ _ (toList_toText key)]
      omega
  · rintro ⟨_, ⟨before, after, htext, hcolon, rfl⟩, hbefore, hafter⟩
    have hlast : after ≠ [] := by
      rintro rfl
      exact hafter (by simp [hlength _ _ htext])
    refine ⟨⟨String.ofList before, String.ofList after⟩, ?_, ?_, ?_, ?_⟩
    · rw [← String.toList_inj, htext, toList_toText, String.toList_ofList, String.toList_ofList]
    · simpa using hbefore
    · rwa [String.toList_ofList]
    · simpa using hlast

/-- A text denotes a key exactly when it has a colon and the first one is neither its first nor its
last character, and the key then has this text. A key is denoted by its own text exactly when its
repository is not empty and has no colon and its rule is not empty. Keys that texts denote are the
same when they have the same text. -/
theorem parse_round_trips :
    (∀ text, (∃ key, parse text = .ok key) ↔
      ∃ i, FirstColonAt text i ∧ i ≠ 0 ∧ i + 1 ≠ text.length) ∧
    (∀ text key, parse text = .ok key → key.toText = text) ∧
    (∀ key : Key, parse key.toText = .ok key ↔
      key.repository ≠ "" ∧ ':' ∉ key.repository.toList ∧ key.rule ≠ "") ∧
    ∀ s t key other, parse s = .ok key → parse t = .ok other → key.toText = other.toText →
      key = other := by
  have htext : ∀ text key, parse text = .ok key → key.toText = text :=
    fun text key h => (parse_eq_ok_iff.mp h).1.symm
  refine ⟨exists_parse_iff, htext, fun key => by simp [parse_eq_ok_iff], ?_⟩
  intro s t key other hkey hother hsame
  have hst : s = t := by rw [← htext s key hkey, ← htext t other hother, hsame]
  rw [hst, hother] at hkey
  exact (Except.ok.inj hkey).symm

/-- A text with two colons denotes the key that is cut at the first of them. The key that would be
cut at the second has the same text, which does not denote it, and neither does any other text. -/
theorem parse_round_trips_twoColons :
    (∃ i, FirstColonAt "css:a:b" i ∧ i ≠ 0 ∧ i + 1 ≠ "css:a:b".length) ∧
      parse "css:a:b" = .ok ⟨"css", "a:b"⟩ ∧ (Key.mk "css" "a:b").toText = "css:a:b" ∧
      parse (Key.mk "css:a" "b").toText ≠ .ok ⟨"css:a", "b"⟩ ∧
      ¬ ∃ text, parse text = .ok ⟨"css:a", "b"⟩ := by
  obtain ⟨hdenotes, htext, hself, hsame⟩ := parse_round_trips
  have hparse : parse "css:a:b" = .ok ⟨"css", "a:b"⟩ :=
    (hself ⟨"css", "a:b"⟩).mpr ⟨by decide, by decide, by decide⟩
  have hcolon : ¬ ':' ∉ "css:a".toList := by decide
  refine ⟨(hdenotes _).mp ⟨_, hparse⟩, hparse, htext _ _ hparse, ?_, ?_⟩
  · exact fun h => hcolon ((hself ⟨"css:a", "b"⟩).mp h).2.1
  · rintro ⟨text, h⟩
    exact absurd (hsame _ _ _ _ h hparse rfl) (by decide)

end LintGateway.Rule.Key
