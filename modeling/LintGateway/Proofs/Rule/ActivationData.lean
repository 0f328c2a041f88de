import LintGateway.Proofs.Traversal
import LintGateway.Rule.Activation

/-!
# What an activation given as data says

The host gives an activation as a record. Its key is a text or a record of the two parts, its options
are absent, a record or a sequence of pairs, and its severity is a label. `SaysActivation` says which
records stand for an activation and for which one; reading accepts exactly these (`read_eq_sound_iff`).
-/

set_option autoImplicit false

namespace LintGateway.Rule

open Schema

/-! ## Keys and severities -/

/-- A value says a key: as the text from which the key is read back, or as a record of its parts. -/
def SaysKey (v : Value) (key : Key) : Prop :=
  (v = .text key.toText ∧ key.repository ≠ "" ∧ ':' ∉ key.repository.toList ∧ key.rule ≠ "") ∨
    ∃ t, v = .record t ∧ Members.get? t "repository" = some (.text key.repository) ∧
      Members.get? t "rule" = some (.text key.rule)

/-- A value says a severity: it is a label of it. -/
def SaysSeverity (v : Value) (severity : Severity) : Prop :=
  ∃ label, v = .text label ∧ Severity.ofLabel? label = some severity

/-- The key of a record is that of its parts. -/
theorem Key.read_eq_sound_iff (v : Value) (key : Key) :
    Key.read v = .sound key ↔
      ∃ t, v = .record t ∧ Members.get? t "repository" = some (.text key.repository) ∧
        Members.get? t "rule" = some (.text key.rule) := by
  unfold Key.read
  rw [readRecord_eq_sound_iff]
  refine exists_congr fun t => and_congr_right fun _ => ?_
  simp only [Checked.seq_eq_sound_iff, Checked.map_eq_sound_iff, required_single_eq_sound_iff,
    readText_eq_sound_iff]
  constructor
  · rintro ⟨_, rule, ⟨repository, ⟨_, hrepository, rfl⟩, rfl⟩, ⟨_, hrule, rfl⟩, rfl⟩
    exact ⟨hrepository, hrule⟩
  · rintro ⟨hrepository, hrule⟩
    exact ⟨_, key.rule, ⟨key.repository, ⟨_, hrepository, rfl⟩, rfl⟩, ⟨_, hrule, rfl⟩, rfl⟩

namespace Activation

/-- A reading that may be refused is sound exactly when it succeeds. -/
theorem orRefused_eq_sound_iff {α : Type} (v : Value) (read : Except Refusal α) (a : α) :
    orRefused v read = .sound a ↔ read = .ok a := by
  cases read <;> simp [orRefused]

/-- A key is read from what says one. -/
theorem readKey_eq_sound_iff (v : Value) (key : Key) :
    readKey v = .sound key ↔ SaysKey v key := by
  unfold SaysKey
  cases v with
  | text s =>
    show orRefused (.text s) (Key.parse s) = .sound key ↔ _
    rw [orRefused_eq_sound_iff, Key.parse_eq_ok_iff]
    simp
  | _ =>
    show Key.read _ = .sound key ↔ _
    rw [Key.read_eq_sound_iff]
    simp

/-- A severity is read from what says one. -/
theorem readSeverity_eq_sound_iff (v : Value) (severity : Severity) :
    readSeverity v = .sound severity ↔ SaysSeverity v severity := by
  unfold SaysSeverity
  cases v with
  | text s =>
    show orRefused (.text s) (Severity.parse s) = .sound severity ↔ _
    rw [orRefused_eq_sound_iff, Severity.parse_eq_ok_iff]
    simp
  | _ =>
    show Checked.reject .notSeverity _ = .sound severity ↔ _
    simp

end Activation

/-! ## Options -/

/-- A value is a sequence of the given items. -/
def IsSequence (v : Value) (items : List Value) : Prop := v = .list items ∨ v = .tuple items

/-- A value says an option: it is a sequence of the name and the value. -/
def SaysPair (v : Value) (pair : String × Value) : Prop := IsSequence v [.text pair.1, pair.2]

/-- A value says options, or that there are none: a record says its members, a sequence the options
of its items, and null says nothing. -/
def SaysOptions (v : Value) (options : Option Options) : Prop :=
  (v = .null ∧ options = none) ∨
    (∃ members, v = .record members ∧ options = some members) ∨
    ∃ items given, IsSequence v items ∧ List.Forall₂ SaysPair items given ∧ options = some given

namespace Options

/-- A sequence is read as a pair when it has two items and the first of them is a text. -/
theorem readPair_eq_sound_iff (v : Value) (pair : String × Value) :
    readPair v = .sound pair ↔ SaysPair v pair := by
  obtain ⟨name, x⟩ := pair
  have hitems : ∀ items : List Value,
      (readPair (.list items) = .sound (name, x) ↔ items = [.text name, x]) ∧
        (readPair (.tuple items) = .sound (name, x) ↔ items = [.text name, x]) := by
    intro items
    match items with
    | [] | [_] | [_, _] =>
      simp [readPair, Checked.seq_eq_sound_iff, Checked.map_eq_sound_iff]
    | _ :: _ :: _ :: _ => simp [readPair]
  unfold SaysPair IsSequence
  cases v with
  | list items => simp [hitems items]
  | tuple items => simp [hitems items]
  | _ => simp [readPair]

/-- Options are read from a sequence of pairs, in its order. -/
theorem read_eq_sound_iff (v : Value) (options : Options) :
    Options.read v = .sound options ↔
      ∃ items, IsSequence v items ∧ List.Forall₂ SaysPair items options := by
  have heach : ∀ items : List Value, Checked.each readPair items = .sound options ↔
      List.Forall₂ SaysPair items options := by
    intro items
    rw [Checked.each_eq_sound_iff]
    have hpair : (fun v pair => readPair v = .sound pair) = SaysPair := by
      funext v pair
      exact propext (readPair_eq_sound_iff v pair)
    rw [hpair]
  unfold Options.read IsSequence
  cases v with
  | list items => simp [readSequence, heach]
  | tuple items => simp [readSequence, heach]
  | _ => simp [readSequence]

/-- Given options are read from what says them, or says that there are none. -/
theorem readGiven_eq_sound_iff (v : Value) (options : Option Options) :
    readGiven v = .sound options ↔ SaysOptions v options := by
  unfold SaysOptions
  cases v with
  | null => simp [readGiven, IsSequence, eq_comm]
  | record members => simp [readGiven, IsSequence, eq_comm]
  | _ =>
    show some <$> Options.read _ = .sound options ↔ _
    rw [Checked.map_eq_sound_iff]
    simp only [read_eq_sound_iff]
    constructor
    · rintro ⟨given, ⟨items, hitems, hpairs⟩, rfl⟩
      exact Or.inr (Or.inr ⟨items, given, hitems, hpairs, rfl⟩)
    · rintro (⟨hnull, -⟩ | ⟨_, hrecord, -⟩ | ⟨items, given, hitems, hpairs, rfl⟩)
      · cases hnull
      · cases hrecord
      · exact ⟨given, ⟨items, hitems, hpairs⟩, rfl⟩

end Options

/-! ## Activations -/

/-- A value says an activation: it is a record whose members say the key, the options and the
severity. Without options or a severity it says that there are none, or the standard one. -/
def SaysActivation (v : Value) (a : Activation) : Prop :=
  ∃ t, v = .record t ∧
    (∃ key, Members.get? t "key" = some key ∧ SaysKey key a.key) ∧
    ((Members.get? t "options" = none ∧ a.options = none) ∨
      ∃ options, Members.get? t "options" = some options ∧ SaysOptions options a.options) ∧
    ((Members.get? t "severity" = none ∧ a.severity = .standard) ∨
      ∃ severity, Members.get? t "severity" = some severity ∧ SaysSeverity severity a.severity)

/-- A value is read as the activation that it says, and refused when it says none. -/
theorem Activation.read_eq_sound_iff (v : Value) (a : Activation) :
    Activation.read v = .sound a ↔ SaysActivation v a := by
  unfold Activation.read SaysActivation
  rw [readRecord_eq_sound_iff]
  refine exists_congr fun t => and_congr_right fun _ => ?_
  simp only [Checked.seq_eq_sound_iff, Checked.map_eq_sound_iff, required_single_eq_sound_iff,
    optional_eq_sound_iff, readKey_eq_sound_iff, readSeverity_eq_sound_iff,
    Options.readGiven_eq_sound_iff]
  constructor
  · rintro ⟨_, severity, ⟨_, options, ⟨key, hkey, rfl⟩, hoptions, rfl⟩, hseverity, rfl⟩
    exact ⟨hkey, hoptions, hseverity⟩
  · rintro ⟨hkey, hoptions, hseverity⟩
    exact ⟨_, a.severity, ⟨_, a.options, ⟨a.key, hkey, rfl⟩, hoptions, rfl⟩, hseverity, rfl⟩

end LintGateway.Rule
