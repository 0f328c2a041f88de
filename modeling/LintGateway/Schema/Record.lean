import LintGateway.Schema.Scalar

/-!
# Reading records

A record is read from a table member by member. A member may go by several names, of which the first
one present counts; a member that must be there and is not is a fault of the whole table.
-/

set_option autoImplicit false

namespace LintGateway.Schema

/-- The member that goes by one of `names`: the first of them that is present, with its value. -/
def findMember (t : Value.Table) (names : List String) : Option (String × Value) :=
  names.findSome? fun name => (t.get? name).map fun v => (name, v)

/-- Reads a member that must be there. -/
def required {α : Type} (t : Value.Table) (names : List String) (read : Value → Checked α) :
    Checked α :=
  match findMember t names with
  | some (name, v) => Checked.under (.member name) (read v)
  | none => Checked.under (.member (names.head?.getD "")) (Checked.reject .missing (.record t))

/-- A member that must be there is read when it is there and its value is read. -/
theorem required_eq_sound_iff {α : Type} (t : Value.Table) (names : List String)
    (read : Value → Checked α) (a : α) :
    required t names read = .sound a ↔
      ∃ name v, findMember t names = some (name, v) ∧ read v = .sound a := by
  unfold required
  cases h : findMember t names with
  | none => simp
  | some m =>
    simp only [Checked.under_eq_sound_iff, Option.some.injEq]
    constructor
    · intro hread
      exact ⟨m.1, m.2, rfl, hread⟩
    · rintro ⟨name, v, rfl, hread⟩
      exact hread

/-- A member that goes by one name is read when it is there. -/
theorem required_single_eq_sound_iff {α : Type} (t : Value.Table) (name : String)
    (read : Value → Checked α) (a : α) :
    required t [name] read = .sound a ↔ ∃ v, t.get? name = some v ∧ read v = .sound a := by
  have hfound : findMember t [name] = (t.get? name).map fun v => (name, v) := by
    unfold findMember
    cases h : t.get? name <;> simp [List.findSome?, h]
  rw [required_eq_sound_iff, hfound]
  constructor
  · rintro ⟨other, v, hv, hread⟩
    obtain ⟨w, hw, heq⟩ := Option.map_eq_some_iff.mp hv
    obtain ⟨rfl, rfl⟩ := Prod.mk.inj heq
    exact ⟨w, hw, hread⟩
  · rintro ⟨v, hv, hread⟩
    exact ⟨name, v, Option.map_eq_some_iff.mpr ⟨v, hv, rfl⟩, hread⟩

/-- Reads a member that may be absent and is `fallback` then. -/
def optional {α : Type} (t : Value.Table) (name : String) (fallback : α)
    (read : Value → Checked α) : Checked α :=
  match t.get? name with
  | some v => Checked.under (.member name) (read v)
  | none => .sound fallback

/-- A member that may be absent is the fallback, or read when it is there. -/
theorem optional_eq_sound_iff {α : Type} (t : Value.Table) (name : String) (fallback a : α)
    (read : Value → Checked α) :
    optional t name fallback read = .sound a ↔
      (t.get? name = none ∧ a = fallback) ∨ ∃ v, t.get? name = some v ∧ read v = .sound a := by
  unfold optional
  cases h : t.get? name with
  | none => simp [eq_comm]
  | some v => simp

/-- Reads a record called `name` from a table, and refuses everything that is not one. -/
def readRecord {α : Type} (origin : Origin) (name : String) (read : Value.Table → Checked α) :
    Value → Checked α
  | .record t => read t
  | v => Checked.reject (.notRecord origin name) v

/-- Only a record is read as one. -/
theorem readRecord_eq_sound_iff {α : Type} (origin : Origin) (name : String)
    (read : Value.Table → Checked α) (v : Value) (a : α) :
    readRecord origin name read v = .sound a ↔ ∃ t, v = .record t ∧ read t = .sound a := by
  cases v <;> simp [readRecord]

/-- Refuses the members of a table that are not among `known`, each where it stands. -/
def onlyKnown (known : List String) (t : Value.Table) : Checked Unit :=
  match t.filter fun m => m.1 ∉ known with
  | [] => .sound ()
  | m :: ms =>
    let fault (m : String × Value) : Fault := ⟨[.member m.1], .unknownMember, m.2⟩
    .faulty (fault m) (ms.map fault)

/-- A table passes when all its names are known. -/
theorem onlyKnown_eq_sound_iff (known : List String) (t : Value.Table) :
    onlyKnown known t = .sound () ↔ ∀ name ∈ Members.names t, name ∈ known := by
  unfold onlyKnown
  cases h : t.filter fun m => m.1 ∉ known with
  | nil =>
    rw [List.filter_eq_nil_iff] at h
    simpa [Members.names] using h
  | cons m ms =>
    have hm : m ∈ t.filter fun m => m.1 ∉ known := h ▸ List.mem_cons_self
    simp only [List.mem_filter, decide_eq_true_eq] at hm
    simp only [reduceCtorEq, false_iff]
    intro hknown
    exact hm.2 (hknown m.1 (List.mem_map.mpr ⟨m, hm.1, rfl⟩))

end LintGateway.Schema
