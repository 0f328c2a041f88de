import LintGateway.Proofs.Value.Names
import LintGateway.Settings.Merge
import Mathlib.Data.List.Forall2

/-!
# What is found in merged layers

What a merge holds under a name depends on what its two layers hold there alone (`found`): two tables
are merged in turn, and in every other case the later layer wins when it has the name. Where no value
of a layer is a table the rule is flat: what is found under a name is what the last layer that has the
name says. The flat rule does not care how the layers were grouped before they were merged, so it
carries over to merges of merged layers.
-/

set_option autoImplicit false

namespace LintGateway.Settings

/-- No value of a table is a table. -/
def IsFlat (t : Value.Table) : Prop := ∀ m ∈ t, ∀ inner, m.2 ≠ .record inner

/-- The value that the last of the layers with a name gives it. -/
def lastValue (name : String) (layers : List Value.Table) : Option Value :=
  layers.reverse.findSome? fun t => Members.get? t name

/-- The last value of a name in two runs of layers is that of the later run, if it has one. -/
theorem lastValue_append (name : String) (before after : List Value.Table) :
    lastValue name (before ++ after) = (lastValue name after).or (lastValue name before) := by
  unfold lastValue
  rw [List.reverse_append, List.findSome?_append]

/-- The last value of a name in one layer is the one that it has. -/
theorem lastValue_singleton (name : String) (t : Value.Table) :
    lastValue name [t] = Members.get? t name := by
  simp [lastValue]

/-! ## Merging two layers -/

/-- A value that replaces none is itself. -/
@[simp] theorem mergeValue_none (v : Value) : mergeValue none v = v := by
  cases v <;> simp [mergeValue]

/-- A table that replaces a table is merged into it. -/
@[simp] theorem mergeValue_record (earlier later : Value.Table) :
    mergeValue (some (.record earlier)) (.record later) = .record (merge earlier later) := by
  simp [mergeValue]

/-- A value that is no table replaces what was there. -/
theorem mergeValue_of_ne_record (current : Option Value) {v : Value}
    (h : ∀ inner, v ≠ .record inner) : mergeValue current v = v := by
  cases v with
  | record inner => exact absurd rfl (h inner)
  | _ => rfl

/-- A value that is no table leaves no trace when another one comes after it. -/
theorem mergeValue_after_ne_record {u : Value} (h : ∀ inner, u ≠ .record inner) (v : Value) :
    mergeValue (some u) v = v := by
  cases v with
  | record later =>
    cases u with
    | record inner => exact absurd rfl (h inner)
    | _ => simp [mergeValue]
  | _ => simp [mergeValue]

/-- What is found under a name when one layer is merged after another. -/
def found (earlier later : Option Value) : Option Value :=
  later.elim earlier fun v => some (mergeValue earlier v)

/-- What only the earlier layer has is found. -/
@[simp] theorem found_none_right (x : Option Value) : found x none = x := rfl

/-- What the later layer has is found, merged into what the earlier one has. -/
@[simp] theorem found_some (x : Option Value) (v : Value) :
    found x (some v) = some (mergeValue x v) := rfl

/-- What only the later layer has is found. -/
@[simp] theorem found_none_left (x : Option Value) : found none x = x := by
  cases x <;> simp

/-- What is found in a merge is found in its two tables. -/
theorem get?_merge_eq_found {earlier later : Value.Table} (h : (Members.names later).Nodup)
    (name : String) :
    Members.get? (merge earlier later) name =
      found (Members.get? earlier name) (Members.get? later name) := by
  induction later generalizing earlier with
  | nil => simp [merge]
  | cons m later ih =>
    obtain ⟨first, v⟩ := m
    obtain ⟨hnew, hrest⟩ := List.nodup_cons.mp h
    rw [merge, ih hrest, Members.get?_put, Members.get?_cons]
    by_cases hname : name = first
    · have hnone : Members.get? later name = none := Members.get?_eq_none_iff.mpr (hname ▸ hnew)
      rw [if_pos hname, if_pos hname, hnone, hname]
      simp
    · simp [hname]

/-- A merge has the names of the earlier table and then the new ones of the later. -/
theorem names_merge {earlier later : Value.Table} (h : (Members.names later).Nodup) :
    Members.names (merge earlier later) =
      Members.names earlier ++
        (Members.names later).filter fun name => name ∉ Members.names earlier := by
  induction later generalizing earlier with
  | nil => simp [merge, Members.names]
  | cons m later ih =>
    obtain ⟨first, v⟩ := m
    obtain ⟨hnew, hrest⟩ := List.nodup_cons.mp h
    have hcons : Members.names ((first, v) :: later) = first :: Members.names later := rfl
    rw [merge, ih hrest, Members.names_put, hcons]
    by_cases hfirst : first ∈ Members.names earlier
    · simp [hfirst]
    · have hsame : ∀ name ∈ Members.names later,
          decide (name ∉ Members.names earlier ++ [first]) =
            decide (name ∉ Members.names earlier) := by
        intro name hname
        have hne : name ≠ first := fun heq => hnew (heq ▸ hname)
        simp [hne]
      simp only [if_neg hfirst, List.filter_congr hsame]
      simp [hfirst]

/-- A merge has the names of both tables. -/
theorem mem_names_merge {earlier later : Value.Table} (h : (Members.names later).Nodup)
    (name : String) :
    name ∈ Members.names (merge earlier later) ↔
      name ∈ Members.names earlier ∨ name ∈ Members.names later := by
  rw [names_merge h, List.mem_append, List.mem_filter, decide_eq_true_eq]
  tauto

/-- Values are merged only where both are tables; anywhere else the later one stands. -/
theorem mergeValue_cases (current : Option Value) (v : Value) :
    (∃ earlier later, current = some (.record earlier) ∧ v = .record later) ∨
      mergeValue current v = v := by
  cases v with
  | record later =>
    cases current with
    | none => exact Or.inr (mergeValue_none _)
    | some u =>
      cases u with
      | record earlier => exact Or.inl ⟨earlier, later, rfl, rfl⟩
      | _ => exact Or.inr (by simp [mergeValue])
  | _ => exact Or.inr (by simp [mergeValue])

/-- A flat table is flat without its first member. -/
theorem IsFlat.tail {m : String × Value} {t : Value.Table} (h : IsFlat (m :: t)) : IsFlat t :=
  fun n hn => h n (List.mem_cons_of_mem m hn)

/-- A flat table stays flat when a value that is no table is put into it. -/
theorem IsFlat.put {t : Value.Table} (h : IsFlat t) (name : String) {v : Value}
    (hv : ∀ inner, v ≠ .record inner) : IsFlat (Members.put t name v) := by
  intro m hm
  rcases Members.eq_or_mem_of_mem_put hm with rfl | hold
  · exact hv
  · exact h m hold

/-- A flat table stays flat when a member is taken out. -/
theorem IsFlat.erase {t : Value.Table} (h : IsFlat t) (name : String) :
    IsFlat (Members.erase t name) :=
  fun m hm => h m (List.mem_filter.mp hm).1

/-- A merge of flat tables is flat. -/
theorem IsFlat.merge {earlier later : Value.Table} (hearlier : IsFlat earlier)
    (hlater : IsFlat later) : IsFlat (merge earlier later) := by
  induction later generalizing earlier with
  | nil => exact hearlier
  | cons m later ih =>
    obtain ⟨name, v⟩ := m
    have hv : ∀ inner, v ≠ .record inner := hlater (name, v) List.mem_cons_self
    rw [Settings.merge, mergeValue_of_ne_record _ hv]
    exact ih (hearlier.put name hv) hlater.tail

/-- A merge has a name once when the earlier table does. -/
theorem nodup_merge {earlier : Value.Table} (later : Value.Table)
    (h : (Members.names earlier).Nodup) : (Members.names (merge earlier later)).Nodup := by
  induction later generalizing earlier with
  | nil => exact h
  | cons m later ih =>
    rw [merge]
    exact ih (Members.nodup_names_put h _ _)

/-- A flat layer wins under every name it has. -/
theorem get?_merge {earlier later : Value.Table} (hflat : IsFlat later)
    (hnames : (Members.names later).Nodup) (name : String) :
    Members.get? (merge earlier later) name =
      (Members.get? later name).or (Members.get? earlier name) := by
  rw [get?_merge_eq_found hnames]
  cases hv : Members.get? later name with
  | none => simp
  | some v => simp [mergeValue_of_ne_record _ (hflat _ (Members.mem_of_get? hv))]

/-! ## Merging any number of layers -/

/-- A table that stands for the layers it was merged from: it has no tables in it, repeats no name,
and says under each name what the last layer with the name says. -/
structure StandsFor (t : Value.Table) (layers : List Value.Table) : Prop where
  flat : IsFlat t
  nodup : (Members.names t).Nodup
  get? : ∀ name, Members.get? t name = lastValue name layers

/-- The empty table stands for no layers. -/
theorem StandsFor.empty : StandsFor [] [] :=
  ⟨fun _ h => absurd h List.not_mem_nil, List.nodup_nil, fun _ => rfl⟩

/-- A flat table stands for itself. -/
theorem StandsFor.self {t : Value.Table} (hflat : IsFlat t) (hnames : (Members.names t).Nodup) :
    StandsFor t [t] :=
  ⟨hflat, hnames, fun name => (lastValue_singleton name t).symm⟩

/-- A merge stands for the layers of both tables in order. -/
theorem StandsFor.merge {earlier later : Value.Table} {before after : List Value.Table}
    (hearlier : StandsFor earlier before) (hlater : StandsFor later after) :
    StandsFor (merge earlier later) (before ++ after) := by
  refine ⟨hearlier.flat.merge hlater.flat, nodup_merge later hearlier.nodup, fun name => ?_⟩
  rw [get?_merge hlater.flat hlater.nodup, lastValue_append, hearlier.get?, hlater.get?]

/-- Tables merged one after the other stand for all their layers in order. -/
theorem StandsFor.foldl {ts : List Value.Table} {each : List (List Value.Table)}
    (h : List.Forall₂ StandsFor ts each) {t : Value.Table} {before : List Value.Table}
    (ht : StandsFor t before) :
    StandsFor (ts.foldl Settings.merge t) (before ++ each.flatten) := by
  induction h generalizing t before with
  | nil => rwa [List.flatten_nil, List.append_nil]
  | cons hfirst _ ih =>
    rw [List.flatten_cons, ← List.append_assoc]
    exact ih (ht.merge hfirst)

/-- Merged tables stand for all the layers that each of them stands for. -/
theorem StandsFor.mergeAll {ts : List Value.Table} {each : List (List Value.Table)}
    (h : List.Forall₂ StandsFor ts each) : StandsFor (mergeAll ts) each.flatten :=
  StandsFor.foldl h .empty

end LintGateway.Settings
