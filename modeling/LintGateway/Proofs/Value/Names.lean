import LintGateway.Value.Basic
import Mathlib.Data.List.Induction

/-!
# Records without repeated names

A record is kept as a list, which could hold a name twice; a mapping cannot. The values of settings
and options are such that no record in them repeats a name, and setting a member keeps them so.
-/

set_option autoImplicit false

namespace LintGateway

namespace Members

variable {α : Type}

/-- A member of a table into which one was put is that one or was there before. -/
theorem eq_or_mem_of_mem_put {t : Members α} {name : String} {a : α} {m : String × α}
    (h : m ∈ put t name a) : m = (name, a) ∨ m ∈ t := by
  induction t with
  | nil => exact Or.inl (List.mem_singleton.mp h)
  | cons n t ih =>
    obtain ⟨other, b⟩ := n
    unfold put at h
    split at h
    · rename_i heq
      rw [heq] at h
      rcases List.mem_cons.mp h with hm | hm
      · exact Or.inl hm
      · exact Or.inr (List.mem_cons_of_mem _ hm)
    · rcases List.mem_cons.mp h with hm | hm
      · exact Or.inr (hm ▸ List.mem_cons_self)
      · rcases ih hm with hnew | hold
        · exact Or.inl hnew
        · exact Or.inr (List.mem_cons_of_mem _ hold)

/-- A table of entries of which one comes last has it put into that of the others. -/
theorem ofList_concat (entries : List (String × α)) (e : String × α) :
    ofList (entries ++ [e]) = (ofList entries).put e.1 e.2 := by
  unfold ofList
  rw [List.foldl_append]
  rfl

/-- Members that come from a list repeat no name. -/
theorem nodup_names_ofList (entries : List (String × α)) : (ofList entries).names.Nodup := by
  induction entries using List.reverseRecOn with
  | nil => exact List.nodup_nil
  | append_singleton entries e ih =>
    rw [ofList_concat]
    exact nodup_names_put ih e.1 e.2

/-- Members that come from a list are entries of it. -/
theorem mem_of_mem_ofList {entries : List (String × α)} {m : String × α}
    (h : m ∈ ofList entries) : m ∈ entries := by
  induction entries using List.reverseRecOn with
  | nil => exact h
  | append_singleton entries e ih =>
    rw [ofList_concat] at h
    rcases eq_or_mem_of_mem_put h with hnew | hold
    · exact List.mem_append_right entries (List.mem_singleton.mpr hnew)
    · exact List.mem_append_left [e] (ih hold)

/-- Under a name of a list of entries its last value is found. -/
theorem get?_ofList (entries : List (String × α)) (name : String) :
    (ofList entries).get? name = entries.reverse.lookup name := by
  induction entries using List.reverseRecOn with
  | nil => rfl
  | append_singleton entries e ih =>
    obtain ⟨other, a⟩ := e
    have hlast : (entries ++ [(other, a)]).reverse = (other, a) :: entries.reverse := by simp
    rw [ofList_concat, get?_put, ih, hlast, List.lookup_cons]
    by_cases h : name = other
    · simp [h]
    · have hb : (name == other) = false := beq_eq_false_iff_ne.mpr h
      rw [if_neg h, hb]

/-- Members with the same names in the same order, and the same found under each, are the same. -/
theorem eq_of_names_of_get? {t u : Members α} (hnodup : t.names.Nodup) (hnames : t.names = u.names)
    (h : ∀ name, t.get? name = u.get? name) : t = u := by
  induction t generalizing u with
  | nil =>
    cases u with
    | nil => rfl
    | cons m u => cases hnames
  | cons m t ih =>
    cases u with
    | nil => cases hnames
    | cons n u =>
      obtain ⟨name, x⟩ := m
      obtain ⟨other, y⟩ := n
      obtain ⟨hname, hrest⟩ := List.cons.inj hnames
      obtain ⟨hnew, hnodup⟩ := List.nodup_cons.mp hnodup
      have hnewer : name ∉ Members.names u := by
        intro hmem
        exact hnew (hrest ▸ hmem)
      simp only at hname
      subst hname
      have hx : x = y := by simpa [get?_cons] using h name
      have htail : ∀ key, get? t key = get? u key := by
        intro key
        by_cases hkey : key = name
        · rw [hkey, get?_eq_none_iff.mpr hnew, get?_eq_none_iff.mpr hnewer]
        · simpa [get?_cons, hkey] using h key
      rw [hx, ih hnodup hrest htail]

end Members

namespace Value

/-- Induction on a value through the items of its sequences and the values of its records. -/
@[elab_as_elim]
theorem induction {motive : Value → Prop} (null : motive .null) (bool : ∀ b, motive (.bool b))
    (int : ∀ n, motive (.int n)) (float : ∀ x object, motive (.float x object))
    (text : ∀ s, motive (.text s)) (moment : ∀ m, motive (.moment m))
    (list : ∀ items, (∀ v ∈ items, motive v) → motive (.list items))
    (tuple : ∀ items, (∀ v ∈ items, motive v) → motive (.tuple items))
    (record : ∀ t : Table, (∀ m ∈ t, motive m.2) → motive (.record t)) : ∀ v, motive v
  | .null => null
  | .bool b => bool b
  | .int n => int n
  | .float x object => float x object
  | .text s => text s
  | .moment m => moment m
  | .list items => list items fun v _ =>
      induction null bool int float text moment list tuple record v
  | .tuple items => tuple items fun v _ =>
      induction null bool int float text moment list tuple record v
  | .record t => record t fun m _ =>
      induction null bool int float text moment list tuple record m.2
termination_by v => sizeOf v
decreasing_by
  · have hmem := List.sizeOf_lt_of_mem ‹v ∈ items›
    simp only [Value.list.sizeOf_spec]
    omega
  · have hmem := List.sizeOf_lt_of_mem ‹v ∈ items›
    simp only [Value.tuple.sizeOf_spec]
    omega
  · have hmem := List.sizeOf_lt_of_mem ‹m ∈ t›
    obtain ⟨name, v⟩ := m
    simp only [Value.record.sizeOf_spec, Prod.mk.sizeOf_spec] at hmem ⊢
    omega

/-- Induction on a table through the tables in it. -/
theorem table_induction {motive : Table → Prop}
    (step : ∀ t, (∀ name inner, Members.get? t name = some (.record inner) → motive inner) →
      motive t) (t : Table) : motive t := by
  suffices h : ∀ v : Value, ∀ t, v = .record t → motive t from h (.record t) t rfl
  intro v
  induction v using induction with
  | record members ih =>
    intro t ht
    cases ht
    apply step
    intro name inner hinner
    exact ih _ (Members.mem_of_get? hinner) inner rfl
  | _ => intro t ht; cases ht

/-- No record in a value has two members of one name. -/
inductive WellNamed : Value → Prop where
  | null : WellNamed .null
  | bool (b : Bool) : WellNamed (.bool b)
  | int (n : Int) : WellNamed (.int n)
  | float (x : Float) (object : Option Nat) : WellNamed (.float x object)
  | text (s : String) : WellNamed (.text s)
  | moment (m : Moment) : WellNamed (.moment m)
  | list {items : List Value} (h : ∀ v ∈ items, WellNamed v) : WellNamed (.list items)
  | tuple {items : List Value} (h : ∀ v ∈ items, WellNamed v) : WellNamed (.tuple items)
  | record {t : Table} (hnames : (Members.names t).Nodup) (h : ∀ m ∈ t, WellNamed m.2) :
      WellNamed (.record t)

/-- The items of a well-named list are well named. -/
theorem WellNamed.of_list {items : List Value} {v : Value} (h : WellNamed (.list items))
    (hv : v ∈ items) : WellNamed v := by
  cases h with
  | list hitems => exact hitems v hv

/-- The items of a well-named tuple are well named. -/
theorem WellNamed.of_tuple {items : List Value} {v : Value} (h : WellNamed (.tuple items))
    (hv : v ∈ items) : WellNamed v := by
  cases h with
  | tuple hitems => exact hitems v hv

/-- A well-named table has a name once each. -/
theorem WellNamed.nodup {t : Table} (h : WellNamed (.record t)) : (Members.names t).Nodup := by
  cases h with
  | record hnames _ => exact hnames

/-- The members of a well-named table are well named. -/
theorem WellNamed.of_mem {t : Table} {m : String × Value} (h : WellNamed (.record t))
    (hm : m ∈ t) : WellNamed m.2 := by
  cases h with
  | record _ hmembers => exact hmembers m hm

/-- What is found in a well-named table is well named. -/
theorem WellNamed.of_get? {t : Table} {name : String} {v : Value} (h : WellNamed (.record t))
    (hv : Members.get? t name = some v) : WellNamed v :=
  h.of_mem (Members.mem_of_get? hv)

/-- The empty table is well named. -/
theorem wellNamed_empty : WellNamed (.record []) :=
  .record List.nodup_nil (by simp)

/-- A well-named value put into a well-named table leaves it well named. -/
theorem WellNamed.put {t : Table} (h : WellNamed (.record t)) (name : String) {v : Value}
    (hv : WellNamed v) : WellNamed (.record (Members.put t name v)) := by
  refine .record (Members.nodup_names_put h.nodup name v) ?_
  intro m hm
  rcases Members.eq_or_mem_of_mem_put hm with rfl | hold
  · exact hv
  · exact h.of_mem hold

end Value

end LintGateway
