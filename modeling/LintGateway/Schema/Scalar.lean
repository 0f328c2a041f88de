import LintGateway.Schema.Checked
import LintGateway.Decimal.Lenient
import LintGateway.Path

/-!
# Reading simple members

How a value is read as a text, a truth value, a number, a path or a sequence. Texts are never made
from other values; truth values and numbers are also read from other scalars that clearly mean one.
-/

set_option autoImplicit false

namespace LintGateway.Schema

open Checked (reject)

/-- A text. -/
def readText : Value → Checked String
  | .text s => .sound s
  | v => reject .notText v

/-- Only a text is read as one. -/
@[simp] theorem readText_eq_sound_iff (v : Value) (s : String) :
    readText v = .sound s ↔ v = .text s := by
  cases v <;> simp [readText]

/-- A text with at least one character. -/
def readNonemptyText (v : Value) : Checked String :=
  (readText v).andThen fun s => if s.isEmpty then reject .textTooShort v else .sound s

/-- A text that is not empty is read from itself. -/
theorem readNonemptyText_eq_sound_iff (v : Value) (s : String) :
    readNonemptyText v = .sound s ↔ v = .text s ∧ s ≠ "" := by
  unfold readNonemptyText
  rw [Checked.andThen_eq_sound_iff]
  simp only [readText_eq_sound_iff]
  constructor
  · rintro ⟨x, rfl, h⟩
    by_cases hx : x.isEmpty = true
    · simp [hx] at h
    · simp only [hx, Bool.false_eq_true, if_false, Checked.sound.injEq] at h
      subst h
      exact ⟨rfl, by simpa using hx⟩
  · rintro ⟨rfl, hs⟩
    exact ⟨s, rfl, by simp [hs]⟩

/-- Nothing, or what `read` reads. -/
def readOptional {α : Type} (read : Value → Checked α) : Value → Checked (Option α)
  | .null => .sound none
  | v => some <$> read v

/-- Nothing is read as nothing, and anything else by the given reading. -/
theorem readOptional_eq_sound_iff {α : Type} (read : Value → Checked α) (v : Value)
    (a : Option α) :
    readOptional read v = .sound a ↔
      (v = .null ∧ a = none) ∨ (v ≠ .null ∧ ∃ x, read v = .sound x ∧ a = some x) := by
  cases v <;> simp [readOptional, Checked.map_eq_sound_iff, eq_comm]

/-- The truth value that a word means, in any case. -/
def boolOfWord? (s : String) : Option Bool :=
  let word := String.ofList (s.toList.map Char.toLower)
  if word ∈ ["0", "off", "f", "false", "n", "no"] then some false
  else if word ∈ ["1", "on", "t", "true", "y", "yes"] then some true
  else none

/-- The truth value that an integer means. -/
def boolOfInt? (n : Int) : Option Bool :=
  if n = 0 then some false else if n = 1 then some true else none

/-- Whether an integer is small: a machine word of 64 bits with a sign holds it. -/
def isSmall (n : Int) : Bool := -0x8000000000000000 ≤ n && n < 0x8000000000000000

/-- Whether a whole number given as a float is small. The least machine word does not count. -/
def isSmallFloat (n : Int) : Bool := -0x8000000000000000 < n && n < 0x8000000000000000

/-- A truth value, also given as a small number or a word. -/
def readBool (v : Value) : Checked Bool :=
  let settled : Option Bool → Checked Bool
    | some b => .sound b
    | none => reject .unreadableBool v
  match v with
  | .bool b => .sound b
  | .int n => if isSmall n then settled (boolOfInt? n) else reject .notBool v
  | .text s => settled (boolOfWord? s)
  | .float x _ =>
    match Decimal.Magnitude.ofFloat x with
    | .finite b =>
      match b.toInt? with
      | some n => if isSmallFloat n then settled (boolOfInt? n) else reject .notBool v
      | none => reject .notBool v
    | _ => reject .notBool v
  | _ => reject .notBool v

/-- An integer, also given as a truth value, a small float without fraction or a numeral. -/
def readInt (v : Value) : Checked Int :=
  match v with
  | .int n => .sound n
  | .bool b => .sound (if b then 1 else 0)
  | .float x _ =>
    match Decimal.Magnitude.ofFloat x with
    | .finite b =>
      match b.toInt? with
      | some n => if isSmallFloat n then .sound n else reject .tooLongInt v
      | none => reject .fractionalInt v
    | _ => reject .notFinite v
  | .text s =>
    match Decimal.lenientInt s with
    | .ok n => .sound n
    | .error .tooLong => reject .tooLongInt v
    | .error .unreadable => reject .unreadableInt v
  | _ => reject .notInt v

/-- An integer and nothing else. -/
def readStrictInt : Value → Checked Int
  | .int n => .sound n
  | v => reject .notInt v

/-- Only an integer is read as one. -/
@[simp] theorem readStrictInt_eq_sound_iff (v : Value) (n : Int) :
    readStrictInt v = .sound n ↔ v = .int n := by
  cases v <;> simp [readStrictInt]

/-- A line of a file, counted from one on. -/
abbrev LineNumber := { n : Nat // 1 ≤ n }

/-- A line number: an integer from one on. -/
def readLineNumber (read : Value → Checked Int) (v : Value) : Checked LineNumber :=
  (read v).andThen fun n =>
    if h : n < 1 then reject (.below 1) v else .sound ⟨n.toNat, by omega⟩

/-- A line number is read from what is read as that integer. -/
theorem readLineNumber_eq_sound_iff (read : Value → Checked Int) (v : Value) (line : LineNumber) :
    readLineNumber read v = .sound line ↔ read v = .sound (line.val : Int) := by
  unfold readLineNumber
  rw [Checked.andThen_eq_sound_iff]
  constructor
  · rintro ⟨n, hn, h⟩
    by_cases hlt : n < 1
    · simp [hlt] at h
    · simp only [hlt, dite_false, Checked.sound.injEq] at h
      rw [hn, ← h]
      simp only [Checked.sound.injEq]
      omega
  · intro h
    have hlt : ¬ (line.val : Int) < 1 := by have := line.property; omega
    exact ⟨line.val, h, by simp [hlt]⟩

/-- A float, also given as an integer, a truth value or a numeral. -/
def readFloat (v : Value) : Checked Float :=
  match v with
  | .float x _ => .sound x
  | .bool b => .sound (if b then 1.0 else 0.0)
  | .int n =>
    match Decimal.floatOfInt? n with
    | some x => .sound x
    | none => reject .notNumber v
  | .text s =>
    match Decimal.lenientFloat? s with
    | some x => .sound x
    | none => reject .unreadableNumber v
  | _ => reject .notNumber v

/-- A float that is not below zero. -/
def readDuration (v : Value) : Checked Float :=
  (readFloat v).andThen fun x => if 0.0 ≤ x then .sound x else reject (.below 0) v

/-- A path, given as a text. -/
def readPath : Value → Checked Path
  | .text s => .sound (Path.ofText s)
  | v => reject .notPath v

/-- The items of a sequence, each read by `readItem`. -/
def readSequence {α : Type} (origin : Origin) (readItem : Value → Checked α) :
    Value → Checked (List α)
  | .list vs => Checked.each readItem vs
  | .tuple vs => Checked.each readItem vs
  | v => reject (.notSequence origin) v

end LintGateway.Schema
