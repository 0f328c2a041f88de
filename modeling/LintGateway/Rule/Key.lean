import LintGateway.Refusal
import LintGateway.Schema.Record

/-!
# Rule keys

The host knows a rule by its key: the repository it belongs to and its name there, written with a
colon between them. Only the first colon of a text separates; the name may hold more of them.
-/

set_option autoImplicit false

namespace LintGateway.Rule

/-- The host's name for a rule. -/
structure Key where
  repository : String
  rule : String
deriving DecidableEq, Repr

namespace Key

/-- The text of a key. -/
def toText (k : Key) : String := k.repository ++ ":" ++ k.rule

/-- The key that a text denotes: both parts must be there and neither may be empty. -/
def parse (text : String) : Except Refusal Key :=
  match Text.cut ':' text with
  | some (repository, rule) =>
    if repository.isEmpty || rule.isEmpty then .error (.malformedKey text)
    else .ok ⟨repository, rule⟩
  | none => .error (.malformedKey text)

/-- A text denotes a key exactly when it is the text of that key, both parts have a character, and
the first part has no colon. -/
theorem parse_eq_ok_iff {text : String} {key : Key} :
    parse text = .ok key ↔ text = key.toText ∧
      key.repository ≠ "" ∧ ':' ∉ key.repository.toList ∧ key.rule ≠ "" := by
  have hcut : Text.cut ':' text = some (key.repository, key.rule) ↔
      text = key.toText ∧ ':' ∉ key.repository.toList := by
    rw [Text.cut_eq_some_iff, ← String.toList_inj]
    simp [toText]
  unfold parse
  constructor
  · intro h
    split at h
    · rename_i repository rule hparts
      by_cases hempty : repository.isEmpty || rule.isEmpty
      · rw [if_pos hempty] at h
        cases h
      · rw [if_neg hempty] at h
        obtain rfl := Except.ok.inj h
        obtain ⟨htext, hcolon⟩ := hcut.mp hparts
        simp only [Bool.or_eq_true, String.isEmpty_iff, not_or] at hempty
        exact ⟨htext, hempty.1, hcolon, hempty.2⟩
    · cases h
  · rintro ⟨htext, hrepository, hcolon, hrule⟩
    rw [hcut.mpr ⟨htext, hcolon⟩]
    simp [hrepository, hrule]

open Schema in
/-- A key, given by its two parts. -/
def read : Value → Checked Key :=
  readRecord .program "RuleKey" fun t =>
    Key.mk <$> required t ["repository"] readText <*> required t ["rule"] readText

end Key

end LintGateway.Rule
