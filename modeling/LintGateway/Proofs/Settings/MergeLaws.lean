import LintGateway.Proofs.Settings.Merge

/-!
# Laws of merging

What a merge holds under a name depends on what the two layers hold there, and its names are those of
the earlier layer and then the new ones of the later. So a law of merging tables comes down to the
same law for values, and for two tables under one name it is the law again, one level further in: all
laws here are proved by induction on a table through the tables in it (`Value.table_induction`).

The empty layer is neutral and a layer that is merged twice counts once. How layers are grouped has
no say unless a value stands between two tables (`merge_assoc_iff`): grouped to the left it cuts the
earlier table off, grouped to the right the later table replaces the value first and then meets the
earlier table. All laws together are `merge_laws`.
-/

set_option autoImplicit false

namespace LintGateway.Settings

/-- Two merges are the same table when they have the same names and hold the same under each. -/
theorem merge_eq_of_found {a b c d : Value.Table} (ha : (Members.names a).Nodup)
    (hb : (Members.names b).Nodup) (hd : (Members.names d).Nodup)
    (hnames : Members.names (merge a b) = Members.names (merge c d))
    (h : ∀ name, found (Members.get? a name) (Members.get? b name) =
      found (Members.get? c name) (Members.get? d name)) : merge a b = merge c d := by
  apply Members.eq_of_names_of_get? (nodup_merge b ha) hnames
  intro name
  rw [get?_merge_eq_found hb, get?_merge_eq_found hd]
  exact h name

/-! ## The laws -/

/-- A value merged into itself is itself, if tables are. -/
theorem mergeValue_self {v : Value} (h : ∀ t, v = .record t → merge t t = t) :
    mergeValue (some v) v = v := by
  obtain ⟨earlier, later, hcurrent, rfl⟩ | hlast := mergeValue_cases (some v) v
  · rw [mergeValue_record, h later rfl]
  · exact hlast

variable {a b c : Value.Table}

/-- The empty table changes nothing that is merged into it. -/
theorem merge_empty_left (h : (Members.names a).Nodup) : merge [] a = a := by
  have hnames : Members.names (merge [] a) = Members.names a := by
    rw [names_merge h]
    simp [Members.names]
  have hnodup : (Members.names (merge [] a)).Nodup := by rwa [hnames]
  apply Members.eq_of_names_of_get? hnodup hnames
  intro name
  simp [get?_merge_eq_found h]

/-- A layer that is merged twice in a row counts once. -/
theorem merge_merge_right (ha : (Value.record a).WellNamed) (hb : (Value.record b).WellNamed) :
    merge (merge a b) b = merge a b := by
  induction b using Value.table_induction generalizing a with
  | step b ih =>
    apply merge_eq_of_found (nodup_merge b ha.nodup) hb.nodup hb.nodup
    · have hknown : (Members.names b).filter (fun name => name ∉ Members.names (merge a b)) = [] := by
        apply List.filter_eq_nil_iff.mpr
        intro name hname
        simp [mem_names_merge hb.nodup, hname]
      rw [names_merge hb.nodup, hknown, List.append_nil]
    · intro name
      rw [get?_merge_eq_found hb.nodup]
      cases hv : Members.get? b name with
      | none => simp
      | some v =>
        have hself : ∀ t, v = .record t → merge t t = t := by
          rintro t rfl
          have ht := hb.of_get? hv
          have htwice := ih name t hv Value.wellNamed_empty ht
          rwa [merge_empty_left ht.nodup] at htwice
        simp only [found_some, Option.some.injEq]
        obtain ⟨earlier, later, hx, rfl⟩ | hlast := mergeValue_cases (Members.get? a name) v
        · rw [hx, mergeValue_record, mergeValue_record,
            ih name later hv (ha.of_get? hx) (hb.of_get? hv)]
        · rw [hlast, mergeValue_self hself]

/-- A layer merged with itself is unchanged. -/
theorem merge_self (h : (Value.record a).WellNamed) : merge a a = a := by
  have htwice := merge_merge_right Value.wellNamed_empty h
  rwa [merge_empty_left h.nodup] at htwice

/-- A layer put under what was already merged over it adds nothing. -/
theorem merge_merge_left (ha : (Value.record a).WellNamed) (hb : (Value.record b).WellNamed) :
    merge a (merge a b) = merge a b := by
  induction a using Value.table_induction generalizing b with
  | step a ih =>
    have hab := nodup_merge b ha.nodup
    apply merge_eq_of_found ha.nodup hab hb.nodup
    · have hold : (Members.names a).filter (fun name => name ∉ Members.names a) = [] := by
        apply List.filter_eq_nil_iff.mpr
        intro name hname
        simp [hname]
      rw [names_merge hab, names_merge hb.nodup, List.filter_append, hold, List.nil_append,
        List.filter_filter]
      simp
    · intro name
      rw [get?_merge_eq_found hb.nodup]
      cases hu : Members.get? a name with
      | none => simp
      | some u =>
        have hself : mergeValue (some u) u = u := by
          apply mergeValue_self
          rintro t rfl
          exact merge_self (ha.of_get? hu)
        cases hv : Members.get? b name with
        | none => simp [hself]
        | some v =>
          simp only [found_some, Option.some.injEq]
          obtain ⟨earlier, later, hx, rfl⟩ | hlast := mergeValue_cases (some u) v
          · obtain rfl := Option.some.inj hx
            rw [mergeValue_record, mergeValue_record,
              ih name earlier hu (ha.of_get? hu) (hb.of_get? hv)]
          · rw [hlast, hlast]

/-! ## Grouping -/

/-- What stands in a value at the end of a path of names. -/
def valueAt : List String → Value → Option Value
  | [], v => some v
  | name :: path, .record t => (Members.get? t name).bind (valueAt path)
  | _ :: _, _ => none

/-- At the end of a path the first and the last of three values hold tables, and the middle one
holds something that is no table. -/
structure Interrupts (u v w : Value) (path : List String) (first last : Value.Table) : Prop where
  first : valueAt path u = some (.record first)
  middle : ∃ x, valueAt path v = some x ∧ ∀ t, x ≠ .record t
  last : valueAt path w = some (.record last)

/-- Where a value stands between two tables, the later table overwrites all of the earlier one. -/
def Groupable (u v w : Value) : Prop :=
  ∀ path first last, Interrupts u v w path first last → merge first last = last

/-- A value found along a path is found in the table under the first name. -/
theorem exists_get?_of_valueAt {name : String} {path : List String} {v x : Value}
    (h : valueAt (name :: path) v = some x) :
    ∃ t y, v = .record t ∧ Members.get? t name = some y ∧ valueAt path y = some x := by
  cases v with
  | record t =>
    obtain ⟨y, hy, hx⟩ := Option.bind_eq_some_iff.mp h
    exact ⟨t, y, rfl, hy, hx⟩
  | _ => cases h

/-- A table is found along a path in a table only. -/
theorem exists_record_of_valueAt {path : List String} {v : Value} {t : Value.Table}
    (h : valueAt path v = some (.record t)) : ∃ inner, v = .record inner := by
  cases path with
  | nil => exact ⟨t, Option.some.inj h⟩
  | cons name path =>
    obtain ⟨inner, -, hv, -⟩ := exists_get?_of_valueAt h
    exact ⟨inner, hv⟩

/-- A value that is no table interrupts two others only where it stands itself. -/
theorem Interrupts.ends {u v w : Value} {path : List String} {first last : Value.Table}
    (h : Interrupts u v w path first last) (hne : ∀ inner, v ≠ .record inner) :
    u = .record first ∧ w = .record last := by
  cases path with
  | nil => exact ⟨Option.some.inj h.first, Option.some.inj h.last⟩
  | cons name path =>
    obtain ⟨x, hx, -⟩ := h.middle
    obtain ⟨b, -, hb, -⟩ := exists_get?_of_valueAt hx
    exact absurd hb (hne b)

/-- Tables can be grouped at will when what stands under each name can. -/
theorem groupable_record_iff :
    Groupable (.record a) (.record b) (.record c) ↔
      ∀ name u v w, Members.get? a name = some u → Members.get? b name = some v →
        Members.get? c name = some w → Groupable u v w := by
  constructor
  · intro h name u v w hu hv hw path first last hpath
    obtain ⟨x, hx, hne⟩ := hpath.middle
    apply h (name :: path) first last
    constructor
    · simpa [valueAt, hu] using hpath.first
    · exact ⟨x, by simpa [valueAt, hv] using hx, hne⟩
    · simpa [valueAt, hw] using hpath.last
  · intro h path first last hpath
    obtain ⟨x, hx, hne⟩ := hpath.middle
    cases path with
    | nil => exact absurd (Option.some.inj hx).symm (hne b)
    | cons name path =>
      obtain ⟨_, u, hau, hu, hfirst⟩ := exists_get?_of_valueAt hpath.first
      obtain ⟨_, v, hbv, hv, hmiddle⟩ := exists_get?_of_valueAt hx
      obtain ⟨_, w, hcw, hw, hlast⟩ := exists_get?_of_valueAt hpath.last
      cases hau
      cases hbv
      cases hcw
      exact h name u v w hu hv hw path first last ⟨hfirst, ⟨x, hmiddle, hne⟩, hlast⟩

/-- Three values can be grouped at will just when no table is lost; for three tables this is left to
show. -/
theorem mergeValue_assoc_iff {u v w : Value}
    (htables : ∀ a b c, u = .record a → v = .record b → w = .record c →
      (merge (merge a b) c = merge a (merge b c) ↔ Groupable u v w)) :
    mergeValue (some (mergeValue (some u) v)) w = mergeValue (some u) (mergeValue (some v) w) ↔
      Groupable u v w := by
  by_cases hw : ∃ c, w = .record c
  · obtain ⟨c, rfl⟩ := hw
    by_cases hv : ∃ b, v = .record b
    · obtain ⟨b, rfl⟩ := hv
      by_cases hu : ∃ a, u = .record a
      · obtain ⟨a, rfl⟩ := hu
        simpa using htables a b c rfl rfl rfl
      · have hgroupable : Groupable u (.record b) (.record c) := by
          intro path first last hpath
          exact absurd (exists_record_of_valueAt hpath.first) hu
        have hne : ∀ inner, u ≠ .record inner := fun inner heq => hu ⟨inner, heq⟩
        simp [mergeValue_after_ne_record hne, hgroupable]
    · -- the value in the middle cuts the first off, which is a loss if that is a table
      have hne : ∀ inner, v ≠ .record inner := fun inner heq => hv ⟨inner, heq⟩
      rw [mergeValue_of_ne_record (some u) hne, mergeValue_after_ne_record hne]
      by_cases hu : ∃ a, u = .record a
      · obtain ⟨a, rfl⟩ := hu
        rw [mergeValue_record, Value.record.injEq, eq_comm]
        constructor
        · intro hkept path first last hpath
          obtain ⟨hfirst, hlast⟩ := hpath.ends hne
          rwa [← Value.record.inj hfirst, ← Value.record.inj hlast]
        · intro h
          exact h [] a c ⟨rfl, ⟨v, rfl, hne⟩, rfl⟩
      · have hneu : ∀ inner, u ≠ .record inner := fun inner heq => hu ⟨inner, heq⟩
        rw [mergeValue_after_ne_record hneu]
        have hgroupable : Groupable u v (.record c) := by
          intro path first last hpath
          exact absurd (hpath.ends hne).1 (hneu first)
        simp [hgroupable]
  · -- the last value stays as it is in both groupings
    have hne : ∀ inner, w ≠ .record inner := fun inner heq => hw ⟨inner, heq⟩
    have hgroupable : Groupable u v w := by
      intro path first last hpath
      exact absurd (exists_record_of_valueAt hpath.last) hw
    simp [mergeValue_of_ne_record _ hne, hgroupable]

/-- However three tables are grouped, the merge has the same names in the same order. -/
theorem names_merge_assoc (hb : (Members.names b).Nodup) (hc : (Members.names c).Nodup) :
    Members.names (merge (merge a b) c) = Members.names (merge a (merge b c)) := by
  rw [names_merge hc, names_merge (nodup_merge c hb), names_merge hb, names_merge hc]
  simp only [List.filter_append, List.filter_filter, List.append_assoc]
  congr 2
  apply List.filter_congr
  intro name _
  by_cases hname : name ∈ Members.names a <;> simp [hname]

/-- Three tables can be grouped at will just when what is found in them under each name can. -/
theorem merge_assoc_iff_found (ha : (Members.names a).Nodup) (hb : (Members.names b).Nodup)
    (hc : (Members.names c).Nodup) :
    merge (merge a b) c = merge a (merge b c) ↔
      ∀ name, found (found (Members.get? a name) (Members.get? b name)) (Members.get? c name) =
        found (Members.get? a name) (found (Members.get? b name) (Members.get? c name)) := by
  have hbc := nodup_merge c hb
  constructor
  · intro h name
    rw [← get?_merge_eq_found hb, ← get?_merge_eq_found hc, ← get?_merge_eq_found hc,
      ← get?_merge_eq_found hbc, h]
  · intro h
    apply merge_eq_of_found (nodup_merge b ha) hc hbc (names_merge_assoc hb hc)
    intro name
    rw [get?_merge_eq_found hb, get?_merge_eq_found hc, h]

/-- Three layers can be grouped at will just when no table is lost behind a value that stands
between two tables. -/
theorem merge_assoc_iff (ha : (Value.record a).WellNamed) (hb : (Value.record b).WellNamed)
    (hc : (Value.record c).WellNamed) :
    merge (merge a b) c = merge a (merge b c) ↔ Groupable (.record a) (.record b) (.record c) := by
  induction a using Value.table_induction generalizing b c with
  | step a ih =>
    rw [merge_assoc_iff_found ha.nodup hb.nodup hc.nodup, groupable_record_iff]
    apply forall_congr'
    intro name
    cases hu : Members.get? a name with
    | none => simp
    | some u =>
      cases hv : Members.get? b name with
      | none => simp
      | some v =>
        cases hw : Members.get? c name with
        | none => simp
        | some w =>
          have hvalues := mergeValue_assoc_iff (u := u) (v := v) (w := w) ?_
          · simpa using hvalues
          · rintro first middle last rfl rfl rfl
            exact ih name first hu (ha.of_get? hu) (hb.of_get? hv) (hc.of_get? hw)

/-- The laws of merging, for layers in which no table repeats a name: the empty layer is neutral on
both sides, a layer merged again on either side changes nothing, and three layers can be grouped at
will unless at the end of some path a value that is no table stands between two tables. -/
theorem merge_laws (ha : (Value.record a).WellNamed) (hb : (Value.record b).WellNamed)
    (hc : (Value.record c).WellNamed) :
    merge a [] = a ∧ merge [] b = b ∧ merge (merge a b) b = merge a b ∧
      merge a (merge a b) = merge a b ∧
      ((∀ path first last,
          ¬ Interrupts (.record a) (.record b) (.record c) path first last) →
        merge (merge a b) c = merge a (merge b c)) := by
  have hempty : merge a [] = a := by simp [merge]
  refine ⟨hempty, merge_empty_left hb.nodup, merge_merge_right ha hb, merge_merge_left ha hb, ?_⟩
  intro huninterrupted
  rw [merge_assoc_iff ha hb hc]
  intro path first last hpath
  exact absurd hpath (huninterrupted path first last)

/-- A layer that only sets the time limit of a linter, in a table of its own. -/
def limitLayer (seconds : Int) : Value.Table := [("linter", .record [("timeout", .int seconds)])]

/-- A layer that names the linter and says that it is strict. -/
def strictLayer : Value.Table :=
  [("linter", .record [("strict", .bool true)]), ("name", .text "lint")]

/-- The layer with a limit is well named. -/
theorem wellNamed_limitLayer (seconds : Int) : (Value.record (limitLayer seconds)).WellNamed :=
  (Value.wellNamed_empty.put "linter" (Value.wellNamed_empty.put "timeout" (.int seconds)))

/-- The strict layer is well named. -/
theorem wellNamed_strictLayer : (Value.record strictLayer).WellNamed :=
  (Value.wellNamed_empty.put "linter" (Value.wellNamed_empty.put "strict" (.bool true))).put "name"
    (.text "lint")

/-- The later limit stands in the place of the earlier one, however the three layers are grouped. -/
theorem merge_laws_limits :
    merge (merge (limitLayer 5) strictLayer) (limitLayer 9) =
        merge (limitLayer 5) (merge strictLayer (limitLayer 9)) ∧
      merge (merge (limitLayer 5) strictLayer) (limitLayer 9) =
        [("linter", .record [("timeout", .int 9), ("strict", .bool true)]),
          ("name", .text "lint")] := by
  obtain ⟨-, -, -, -, hgroup⟩ := merge_laws (wellNamed_limitLayer 5) wellNamed_strictLayer
    (wellNamed_limitLayer 9)
  have huninterrupted : ∀ path first last, ¬ Interrupts (.record (limitLayer 5))
      (.record strictLayer) (.record (limitLayer 9)) path first last := by
    intro path first last hpath
    obtain ⟨x, hx, hne⟩ := hpath.middle
    cases path with
    | nil => exact absurd (Option.some.inj hx).symm (hne _)
    | cons name path =>
      obtain ⟨_, v, hmiddle, hv, hx⟩ := exists_get?_of_valueAt hx
      obtain ⟨_, w, houter, hw, hlast⟩ := exists_get?_of_valueAt hpath.last
      cases hmiddle
      cases houter
      -- the last layer holds a table under one name only, and so does the middle one
      obtain ⟨hname, rfl⟩ : name = "linter" ∧ .record [("timeout", .int 9)] = w := by
        simpa [limitLayer, Members.get?_cons] using hw
      have hv : .record [("strict", .bool true)] = v := by
        simpa [strictLayer, Members.get?_cons, hname] using hv
      subst hv
      cases path with
      | nil => exact absurd (Option.some.inj hx).symm (hne _)
      | cons inner path =>
        obtain ⟨_, y, hlimit, hy, hlast⟩ := exists_get?_of_valueAt hlast
        cases hlimit
        obtain ⟨-, rfl⟩ : inner = "timeout" ∧ .int 9 = y := by
          simpa [Members.get?_cons] using hy
        obtain ⟨_, hnone⟩ := exists_record_of_valueAt hlast
        cases hnone
  refine ⟨hgroup huninterrupted, ?_⟩
  simp [limitLayer, strictLayer, merge, mergeValue, Members.get?_cons, Members.put]

end LintGateway.Settings
