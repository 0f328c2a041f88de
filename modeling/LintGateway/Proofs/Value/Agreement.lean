import LintGateway.Proofs.Traversal
import LintGateway.Proofs.Value.Names
import LintGateway.Value.Agreement
import Mathlib.Data.List.Perm.Subperm

/-!
# Agreement is symmetric and transitive

Values that agree count the same, or are the same, or agree item by item or member by member. The
comparison of records looks up each member of the one in the other and compares the lengths, so it
is symmetric only where no name is repeated: then each name of the second record is one of the
first. It is transitive for all values. It is not reflexive, since an undefined float that stands
nowhere else agrees with nothing.
-/

set_option autoImplicit false

namespace LintGateway

/-- Agreement of quantities is symmetric. -/
theorem Quantity.agrees_symm {a b : Quantity} (h : a.agrees b = true) : b.agrees a = true := by
  simp only [agrees, Bool.and_eq_true, decide_eq_true_eq] at h ⊢
  exact ⟨h.1.symm, h.1 ▸ h.2⟩

/-- Agreement of quantities is transitive. -/
theorem Quantity.agrees_trans {a b c : Quantity} (h : a.agrees b = true)
    (h' : b.agrees c = true) : a.agrees c = true := by
  simp only [agrees, Bool.and_eq_true, decide_eq_true_eq] at h h' ⊢
  exact ⟨h.1.trans h'.1, h.2⟩

/-- A moment that agrees with another has an offset when that has one, and is then the same instant;
without offsets the two are equal. -/
theorem Moment.agrees_iff {m n : Moment} : m.agrees n = true ↔
    (∃ d c o e k p, m = dateTime d c (some o) ∧ n = dateTime e k (some p) ∧
      instant d c o = instant e k p) ∨ m = n := by
  constructor
  · intro h
    unfold agrees at h
    split at h
    · exact Or.inl ⟨_, _, _, _, _, _, rfl, rfl, of_decide_eq_true h⟩
    · exact Or.inr (of_decide_eq_true h)
  · rintro (⟨d, c, o, e, k, p, rfl, rfl, h⟩ | rfl)
    · simpa [agrees] using h
    · unfold agrees
      split <;> simp_all

/-- Agreement of moments goes both ways. -/
theorem Moment.agrees_symm {m n : Moment} (h : m.agrees n = true) : n.agrees m = true := by
  rw [agrees_iff] at h ⊢
  rcases h with ⟨d, c, o, e, k, p, hm, hn, h⟩ | rfl
  · exact Or.inl ⟨e, k, p, d, c, o, hn, hm, h.symm⟩
  · exact Or.inr rfl

/-- Moments that agree with one between them agree with each other. -/
theorem Moment.agrees_trans {l m n : Moment} (h : l.agrees m = true) (h' : m.agrees n = true) :
    l.agrees n = true := by
  rw [agrees_iff] at h h' ⊢
  rcases h with ⟨d, c, o, e, k, p, hl, rfl, h⟩ | rfl
  · rcases h' with ⟨_, _, _, e', k', p', hm, hn, h'⟩ | rfl
    · cases hm
      exact Or.inl ⟨d, c, o, e', k', p', hl, hn, h.trans h'⟩
    · exact Or.inl ⟨d, c, o, e, k, p, hl, rfl, h⟩
  · exact h'

namespace Value

/-! ## What agreeing means for each kind of value -/

/-- A value counts as a quantity when it has one that agrees. -/
theorem counts_iff {v : Value} {q : Quantity} :
    v.counts q = true ↔ ∃ p, v.quantity? = some p ∧ q.agrees p = true := by
  unfold counts
  cases v.quantity? with
  | none => simp
  | some p => simp

/-- Lists of items agree one by one. -/
theorem agreesItems_iff {vs ws : List Value} :
    agreesItems vs ws = true ↔ List.Forall₂ (fun v w => v.agrees w = true) vs ws := by
  induction vs generalizing ws with
  | nil =>
    rw [agreesItems, List.isEmpty_iff, List.forall₂_nil_left_iff]
  | cons v vs ih =>
    cases ws with
    | nil => simp [agreesItems]
    | cons w ws => rw [agreesItems, Bool.and_eq_true, ih, List.forall₂_cons]

/-- Members agree with a table in which each of them is found and agrees. -/
theorem agreesMembers_iff {ms ns : Table} :
    agreesMembers ms ns = true ↔
      ∀ m ∈ ms, ∃ w, Members.get? ns m.1 = some w ∧ m.2.agrees w = true := by
  induction ms with
  | nil => simp [agreesMembers]
  | cons m ms ih =>
    obtain ⟨name, v⟩ := m
    rw [List.forall_mem_cons, ← ih, agreesMembers]
    cases Members.get? ns name with
    | none => simp
    | some w => simp

/-- A list agrees with a list of items that agree one by one. -/
theorem list_agrees_iff {vs : List Value} {w : Value} :
    (list vs).agrees w = true ↔
      ∃ ws, w = list ws ∧ List.Forall₂ (fun v w => v.agrees w = true) vs ws := by
  simp only [← agreesItems_iff]
  cases w <;> simp [agrees]

/-- A tuple agrees with a tuple of items that agree one by one. -/
theorem tuple_agrees_iff {vs : List Value} {w : Value} :
    (tuple vs).agrees w = true ↔
      ∃ ws, w = tuple ws ∧ List.Forall₂ (fun v w => v.agrees w = true) vs ws := by
  simp only [← agreesItems_iff]
  cases w <;> simp [agrees]

/-- A table agrees with a table of as many members in which each of its own is found and agrees. -/
theorem record_agrees_iff {ms : Table} {w : Value} :
    (record ms).agrees w = true ↔ ∃ ns, w = record ns ∧ ms.length = ns.length ∧
      ∀ m ∈ ms, ∃ w, Members.get? ns m.1 = some w ∧ m.2.agrees w = true := by
  simp only [← agreesMembers_iff]
  cases w <;> simp [agrees]

/-- Null agrees with null. -/
theorem null_agrees_iff {w : Value} : null.agrees w = true ↔ w = null := by
  cases w <;> simp [agrees]

/-- A text agrees with itself. -/
theorem text_agrees_iff {s : String} {w : Value} : (text s).agrees w = true ↔ w = text s := by
  cases w <;> simp [agrees, eq_comm]

/-- A calendar value agrees with one that is the same. -/
theorem moment_agrees_iff {m : Moment} {w : Value} :
    (moment m).agrees w = true ↔ ∃ n, w = moment n ∧ m.agrees n = true := by
  cases w <;> simp [agrees]

/-! ## Transitivity -/

/-- What agrees with a value that a quantity agrees with agrees with the quantity. -/
theorem agrees_trans_of_quantity {u v w : Value} {q : Quantity} (hq : u.quantity? = some q)
    (h : u.agrees v = true) (h' : v.agrees w = true) : u.agrees w = true := by
  rw [agrees_eq_counts hq, counts_iff] at h
  obtain ⟨p, hp, hqp⟩ := h
  rw [agrees_eq_counts hp, counts_iff] at h'
  obtain ⟨r, hr, hpr⟩ := h'
  rw [agrees_eq_counts hq, counts_iff]
  exact ⟨r, hr, Quantity.agrees_trans hqp hpr⟩

/-- Agreement of values is transitive. -/
theorem agrees_trans {u v w : Value} (h : u.agrees v = true) (h' : v.agrees w = true) :
    u.agrees w = true := by
  induction u using induction generalizing v w with
  | null =>
    obtain rfl := null_agrees_iff.mp h
    exact h'
  | bool b => exact agrees_trans_of_quantity rfl h h'
  | int n => exact agrees_trans_of_quantity rfl h h'
  | float x object => exact agrees_trans_of_quantity rfl h h'
  | text s =>
    obtain rfl := text_agrees_iff.mp h
    exact h'
  | moment l =>
    obtain ⟨m, rfl, hlm⟩ := moment_agrees_iff.mp h
    obtain ⟨n, rfl, hmn⟩ := moment_agrees_iff.mp h'
    exact moment_agrees_iff.mpr ⟨n, rfl, Moment.agrees_trans hlm hmn⟩
  | list us ih =>
    obtain ⟨vs, rfl, hvs⟩ := list_agrees_iff.mp h
    obtain ⟨ws, rfl, hws⟩ := list_agrees_iff.mp h'
    exact list_agrees_iff.mpr
      ⟨ws, rfl, forall₂_comp hvs hws fun u hu _ _ huv hvw => ih u hu huv hvw⟩
  | tuple us ih =>
    obtain ⟨vs, rfl, hvs⟩ := tuple_agrees_iff.mp h
    obtain ⟨ws, rfl, hws⟩ := tuple_agrees_iff.mp h'
    exact tuple_agrees_iff.mpr
      ⟨ws, rfl, forall₂_comp hvs hws fun u hu _ _ huv hvw => ih u hu huv hvw⟩
  | record ls ih =>
    obtain ⟨ms, rfl, hlength, hms⟩ := record_agrees_iff.mp h
    obtain ⟨ns, rfl, hlength', hns⟩ := record_agrees_iff.mp h'
    refine record_agrees_iff.mpr ⟨ns, rfl, hlength.trans hlength', ?_⟩
    intro l hl
    obtain ⟨v, hv, hlv⟩ := hms l hl
    obtain ⟨w, hw, hvw⟩ := hns (l.1, v) (Members.mem_of_get? hv)
    exact ⟨w, hw, ih l hl hlv hvw⟩

/-! ## Symmetry -/

/-- A value that agrees with a quantity has a quantity that agrees with it. -/
theorem agrees_symm_of_quantity {v w : Value} {q : Quantity} (hq : v.quantity? = some q)
    (h : v.agrees w = true) : w.agrees v = true := by
  rw [agrees_eq_counts hq, counts_iff] at h
  obtain ⟨p, hp, hqp⟩ := h
  rw [agrees_eq_counts hp, counts_iff]
  exact ⟨q, hq, Quantity.agrees_symm hqp⟩

/-- Where each name of a record is one of another with as many members, and neither repeats a name,
each name of the other one is one of the first. -/
theorem exists_mem_of_names_subset {ms ns : Table} (hms : (Members.names ms).Nodup)
    (hlength : ms.length = ns.length)
    (hsub : ∀ m ∈ ms, ∃ w, Members.get? ns m.1 = some w) {n : String × Value} (hn : n ∈ ns) :
    ∃ v, (n.1, v) ∈ ms := by
  have hsubset : Members.names ms ⊆ Members.names ns := by
    intro name hname
    obtain ⟨m, hm, rfl⟩ := List.mem_map.mp hname
    obtain ⟨w, hw⟩ := hsub m hm
    exact List.mem_map.mpr ⟨_, Members.mem_of_get? hw, rfl⟩
  have hperm : (Members.names ms).Perm (Members.names ns) := by
    refine (List.subperm_of_subset hms hsubset).perm_of_length_le ?_
    simp [Members.names, hlength]
  have hname : n.1 ∈ Members.names ms := hperm.mem_iff.mpr (List.mem_map.mpr ⟨n, hn, rfl⟩)
  obtain ⟨m, hm, hmn⟩ := List.mem_map.mp hname
  exact ⟨m.2, hmn ▸ hm⟩

/-- Agreement of values is symmetric where names are given once. -/
theorem agrees_symm {v w : Value} (hv : WellNamed v) (hw : WellNamed w)
    (h : v.agrees w = true) : w.agrees v = true := by
  induction v using induction generalizing w with
  | null =>
    obtain rfl := null_agrees_iff.mp h
    exact h
  | bool b => exact agrees_symm_of_quantity rfl h
  | int n => exact agrees_symm_of_quantity rfl h
  | float x object => exact agrees_symm_of_quantity rfl h
  | text s =>
    obtain rfl := text_agrees_iff.mp h
    exact h
  | moment m =>
    obtain ⟨n, rfl, hmn⟩ := moment_agrees_iff.mp h
    exact moment_agrees_iff.mpr ⟨m, rfl, Moment.agrees_symm hmn⟩
  | list vs ih =>
    obtain ⟨ws, rfl, hws⟩ := list_agrees_iff.mp h
    refine list_agrees_iff.mpr ⟨vs, rfl, List.Forall₂.flip ?_⟩
    refine forall₂_imp_of_mem hws fun v hv' w hw' hvw => ?_
    exact ih v hv' (hv.of_list hv') (hw.of_list hw') hvw
  | tuple vs ih =>
    obtain ⟨ws, rfl, hws⟩ := tuple_agrees_iff.mp h
    refine tuple_agrees_iff.mpr ⟨vs, rfl, List.Forall₂.flip ?_⟩
    refine forall₂_imp_of_mem hws fun v hv' w hw' hvw => ?_
    exact ih v hv' (hv.of_tuple hv') (hw.of_tuple hw') hvw
  | record ms ih =>
    obtain ⟨ns, rfl, hlength, hms⟩ := record_agrees_iff.mp h
    refine record_agrees_iff.mpr ⟨ms, rfl, hlength.symm, ?_⟩
    intro n hn
    -- as many names, each once, and all of the first are in the second: so the other way round too
    obtain ⟨v, hvn⟩ := exists_mem_of_names_subset hv.nodup hlength
      (fun m hm => (hms m hm).imp fun _ h => h.1) hn
    obtain ⟨w, hget, hvw⟩ := hms _ hvn
    have hwn : w = n.2 := by
      have hfound := (Members.get?_eq_some_iff hw.nodup n.1 n.2).mpr hn
      rw [hget] at hfound
      exact Option.some.inj hfound
    refine ⟨v, (Members.get?_eq_some_iff hv.nodup n.1 v).mpr hvn, ?_⟩
    rw [← hwn]
    exact ih _ hvn (hv.of_mem hvn) (hwn ▸ hw.of_mem hn) hvw

end Value

end LintGateway
