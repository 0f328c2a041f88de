import LintGateway.Proofs.Traversal
import LintGateway.Proofs.Value.Names
import LintGateway.Rule.Options

/-!
# Frozen values

Freezing turns every sequence in a value into a tuple, at any depth, and leaves everything else as
it is: that is what `FreezesTo` says without the function. A value that is frozen holds no list, and
freezing a value without a list changes nothing.
-/

set_option autoImplicit false

namespace LintGateway.Value

/-- No list stands in a value, at any depth. -/
inductive IsFrozen : Value → Prop where
  | null : IsFrozen .null
  | bool (b : Bool) : IsFrozen (.bool b)
  | int (n : Int) : IsFrozen (.int n)
  | float (x : Float) (object : Option Nat) : IsFrozen (.float x object)
  | text (s : String) : IsFrozen (.text s)
  | moment (m : Moment) : IsFrozen (.moment m)
  | tuple {items : List Value} (h : ∀ v ∈ items, IsFrozen v) : IsFrozen (.tuple items)
  | record {t : Table} (h : ∀ m ∈ t, IsFrozen m.2) : IsFrozen (.record t)

/-- The second value is the first with tuples in the place of the sequences in it. -/
inductive FreezesTo : Value → Value → Prop where
  | null : FreezesTo .null .null
  | bool (b : Bool) : FreezesTo (.bool b) (.bool b)
  | int (n : Int) : FreezesTo (.int n) (.int n)
  | float (x : Float) (object : Option Nat) : FreezesTo (.float x object) (.float x object)
  | text (s : String) : FreezesTo (.text s) (.text s)
  | moment (m : Moment) : FreezesTo (.moment m) (.moment m)
  | list {vs ws : List Value} (hlength : vs.length = ws.length)
      (h : ∀ p ∈ vs.zip ws, FreezesTo p.1 p.2) : FreezesTo (.list vs) (.tuple ws)
  | tuple {vs ws : List Value} (hlength : vs.length = ws.length)
      (h : ∀ p ∈ vs.zip ws, FreezesTo p.1 p.2) : FreezesTo (.tuple vs) (.tuple ws)
  | record {ms ns : Table} (hnames : Members.names ms = Members.names ns)
      (h : ∀ p ∈ ms.zip ns, FreezesTo p.1.2 p.2.2) : FreezesTo (.record ms) (.record ns)

/-! ## What freezing does to the parts of a value -/

/-- Items are frozen one by one. -/
theorem freezeItems_eq_map (vs : List Value) : freezeItems vs = vs.map freeze := by
  induction vs with
  | nil => rfl
  | cons v vs ih => rw [freezeItems, ih, List.map_cons]

/-- Members are frozen one by one, under their names. -/
theorem freezeMembers_eq_map (ms : List (String × Value)) :
    freezeMembers ms = ms.map fun m => (m.1, m.2.freeze) := by
  induction ms with
  | nil => rfl
  | cons m ms ih =>
    obtain ⟨name, v⟩ := m
    rw [freezeMembers, ih, List.map_cons]

/-- Freezing leaves members as they are when it does so with their values. -/
theorem freezeMembers_eq_self {ms : List (String × Value)} (h : ∀ m ∈ ms, m.2.freeze = m.2) :
    freezeMembers ms = ms := by
  rw [freezeMembers_eq_map]
  calc ms.map (fun m => (m.1, m.2.freeze))
    _ = ms.map id := List.map_congr_left fun m hm => by rw [h m hm]; rfl
    _ = ms := List.map_id ms

/-- A list is frozen to the tuple of its frozen items. -/
@[simp] theorem freeze_list (items : List Value) :
    (list items).freeze = tuple (items.map freeze) := by
  rw [freeze, freezeItems_eq_map]

/-- A tuple is frozen to the tuple of its frozen items. -/
@[simp] theorem freeze_tuple (items : List Value) :
    (tuple items).freeze = tuple (items.map freeze) := by
  rw [freeze, freezeItems_eq_map]

/-- A table is frozen to the table of its frozen members. -/
@[simp] theorem freeze_record (t : Table) :
    (record t).freeze = record (t.map fun m => (m.1, m.2.freeze)) := by
  rw [freeze, freezeMembers_eq_map]

/-! ## Frozen forms -/

/-- A value that is frozen has tuples in the place of its sequences. -/
theorem freezesTo_freeze (v : Value) : FreezesTo v v.freeze := by
  have hsequence : ∀ items : List Value, (∀ v ∈ items, FreezesTo v v.freeze) →
      items.length = (items.map freeze).length ∧
        ∀ p ∈ items.zip (items.map freeze), FreezesTo p.1 p.2 := by
    intro items h
    obtain ⟨hlength, hzip⟩ := List.forall₂_iff_zip.mp (forall₂_map_self h)
    exact ⟨hlength, fun p hp => hzip hp⟩
  induction v using Value.induction with
  | null => exact .null
  | bool b => exact .bool b
  | int n => exact .int n
  | float x object => exact .float x object
  | text s => exact .text s
  | moment m => exact .moment m
  | list items ih =>
    obtain ⟨hlength, h⟩ := hsequence items ih
    rw [freeze_list]
    exact .list hlength h
  | tuple items ih =>
    obtain ⟨hlength, h⟩ := hsequence items ih
    rw [freeze_tuple]
    exact .tuple hlength h
  | record t ih =>
    have heach : List.Forall₂ (fun m n : String × Value => FreezesTo m.2 n.2) t
        (t.map fun m => (m.1, m.2.freeze)) := forall₂_map_self ih
    rw [freeze_record]
    refine .record ?_ fun p hp => (List.forall₂_iff_zip.mp heach).2 hp
    simp [Members.names]

/-- What stands in the place of a value holds no list. -/
theorem FreezesTo.isFrozen {v w : Value} (h : FreezesTo v w) : IsFrozen w := by
  induction h with
  | null => exact .null
  | bool b => exact .bool b
  | int n => exact .int n
  | float x object => exact .float x object
  | text s => exact .text s
  | moment m => exact .moment m
  | list hlength _ ih | tuple hlength _ ih =>
    exact .tuple (forall_mem_of_forall₂ (List.forall₂_iff_zip.mpr ⟨hlength, fun hp => ih _ hp⟩))
  | @record ms ns hnames _ ih =>
    have hlength : ms.length = ns.length := by
      simpa [Members.names] using congrArg List.length hnames
    have heach : List.Forall₂ (fun _ n : String × Value => IsFrozen n.2) ms ns :=
      List.forall₂_iff_zip.mpr ⟨hlength, fun hp => ih _ hp⟩
    exact .record (forall_mem_of_forall₂ heach)

/-- Freezing changes nothing in a value without a list. -/
theorem freeze_of_isFrozen {v : Value} (h : IsFrozen v) : v.freeze = v := by
  induction h with
  | null | bool | int | float | text | moment => rfl
  | tuple _ ih =>
    rw [freeze_tuple]
    exact congrArg Value.tuple (List.map_congr_left ih |>.trans (List.map_id _))
  | record _ ih =>
    rw [freeze]
    exact congrArg Value.record (freezeMembers_eq_self ih)

end LintGateway.Value
