import LintGateway.Schema.Fault

/-!
# Checked results

The outcome of reading a record: the record, or the faults in the order in which the reading met
them, of which there is at least one. Combining two readings keeps the faults of both, so a record
with several bad members reports all of them.
-/

set_option autoImplicit false

namespace LintGateway.Schema

/-- What was read, or the faults met: the first one and the others after it. -/
inductive Checked (α : Type) where
  | sound (a : α)
  | faulty (first : Fault) (others : List Fault)

namespace Checked

variable {α β : Type}

/-- A reading that fails with one fault at the top of the value. -/
def reject (complaint : Complaint) (found : Value) : Checked α :=
  faulty ⟨[], complaint, found⟩ []

/-- The faults met, in order. -/
def faults : Checked α → List Fault
  | sound _ => []
  | faulty first others => first :: others

/-- Applies a function that was read to an argument that was read, after the faults of both. -/
def combine (f : Checked (α → β)) (a : Checked α) : Checked β :=
  match f, a with
  | sound f, sound a => sound (f a)
  | sound _, faulty first others => faulty first others
  | faulty first others, a => faulty first (others ++ a.faults)

instance : Applicative Checked where
  pure := sound
  seq f a := combine f (a ())

/-- A second reading that depends on the first one being sound. -/
def andThen (a : Checked α) (next : α → Checked β) : Checked β :=
  match a with
  | sound a => next a
  | faulty first others => faulty first others

/-- Moves the faults of a reading one step down, to where the value read stands. -/
def under (step : Step) (a : Checked α) : Checked α :=
  match a with
  | sound a => sound a
  | faulty first others =>
    let move (f : Fault) : Fault := { f with location := step :: f.location }
    faulty (move first) (others.map move)

/-- A rejected value gives no result. -/
@[simp] theorem reject_ne_sound (complaint : Complaint) (found : Value) (a : α) :
    reject complaint found ≠ sound a := by
  simp [reject]

/-- Two readings together succeed when both do. -/
theorem seq_eq_sound_iff (f : Checked (α → β)) (a : Checked α) (b : β) :
    f <*> a = sound b ↔ ∃ g x, f = sound g ∧ a = sound x ∧ g x = b := by
  show combine f a = sound b ↔ _
  cases f <;> cases a <;> simp [combine]

/-- What is made from a reading is there when the reading succeeds. -/
theorem map_eq_sound_iff (f : α → β) (a : Checked α) (b : β) :
    f <$> a = sound b ↔ ∃ x, a = sound x ∧ f x = b := by
  show combine (sound f) a = sound b ↔ _
  cases a <;> simp [combine]

/-- Moving the faults of a reading does not touch its success. -/
@[simp] theorem under_eq_sound_iff (step : Step) (a : Checked α) (x : α) :
    under step a = sound x ↔ a = sound x := by
  cases a <;> simp [under]

/-- A reading that depends on another succeeds when both do. -/
theorem andThen_eq_sound_iff (a : Checked α) (next : α → Checked β) (b : β) :
    a.andThen next = sound b ↔ ∃ x, a = sound x ∧ next x = sound b := by
  cases a <;> simp [andThen]

/-- The reading as a result that names all faults on failure. -/
def toExcept : Checked α → Except (List Fault) α
  | sound a => .ok a
  | faulty first others => .error (first :: others)

/-- Reads the items of a sequence one by one, the first of them at position `index`. -/
def eachFrom (readItem : Value → Checked α) : Nat → List Value → Checked (List α)
  | _, [] => sound []
  | index, v :: vs =>
    List.cons <$> under (.item index) (readItem v) <*> eachFrom readItem (index + 1) vs

/-- Reads the items of a sequence one by one. -/
def each (readItem : Value → Checked α) (vs : List Value) : Checked (List α) :=
  eachFrom readItem 0 vs

/-- Reads the members of a record one by one. -/
def eachMember (readOne : Value → Checked α) : List (String × Value) → Checked (Members α)
  | [] => sound []
  | (name, v) :: ms =>
    (fun a rest => (name, a) :: rest) <$> under (.member name) (readOne v) <*> eachMember readOne ms

end Checked

end LintGateway.Schema
