import LintGateway.Proofs.Traversal
import LintGateway.Proofs.Value.Names
import LintGateway.Toml.Document

/-!
# What the TOML reader returns

No table of a document has two members of one name. Values are read going down with the brackets and
braces around them; tables grow statement by statement. The invariant of a table under construction
is that of the table it would be if it were closed now (`Sound`), and each of the three ways to
change a table keeps it, wherever in the document the table is.
-/

set_option autoImplicit false

namespace LintGateway.Toml

open Value (WellNamed)

/-! ## Tables under construction -/

/-- A part put into a body is put into its table. -/
theorem bodyTable_put (body : Body) (name : String) (part : Part) :
    bodyTable (Members.put body name part) = Members.put (bodyTable body) name part.toValue := by
  induction body with
  | nil => rfl
  | cons m body ih =>
    obtain ⟨other, old⟩ := m
    by_cases heq : other = name
    · simp [Members.put, bodyTable, heq]
    · simp [Members.put, bodyTable, heq, ih]

/-- What is found in the table of a body is the value of the part found in it. -/
theorem get?_bodyTable (body : Body) (name : String) :
    Members.get? (bodyTable body) name = (Members.get? body name).map Part.toValue := by
  induction body with
  | nil => rfl
  | cons m body ih =>
    obtain ⟨other, part⟩ := m
    rw [bodyTable, Members.get?_cons, Members.get?_cons, ih]
    split <;> rfl

/-- The table that a body has become repeats no name, nor does any table in it. -/
def Sound (body : Body) : Prop := WellNamed (.record (bodyTable body))

/-- The empty body is sound. -/
theorem sound_empty : Sound [] := Value.wellNamed_empty

/-- A sound body with a well-named part put into it is sound. -/
theorem Sound.put {body : Body} (h : Sound body) (name : String) {part : Part}
    (hpart : WellNamed part.toValue) : Sound (Members.put body name part) := by
  unfold Sound
  rw [bodyTable_put]
  exact WellNamed.put h name hpart

/-- The parts of a sound body are well named. -/
theorem Sound.of_get? {body : Body} {name : String} {part : Part} (h : Sound body)
    (hpart : Members.get? body name = some part) : WellNamed part.toValue := by
  have hvalue : Members.get? (bodyTable body) name = some part.toValue := by
    rw [get?_bodyTable, hpart]
    rfl
  exact WellNamed.of_get? h hvalue

/-- A table in a sound body is sound. -/
theorem Sound.of_get?_table {body inner : Body} {name : String} {opened : Option Nat}
    (h : Sound body) (hpart : Members.get? body name = some (.table opened inner)) :
    Sound inner := by
  have hvalue := h.of_get? hpart
  rwa [Part.toValue] at hvalue

/-- An array of tables is well named when those that are finished are and the current one is sound.
-/
theorem wellNamed_tables_iff {finished : List Value} {current : Body} :
    WellNamed (Part.tables finished current).toValue ↔
      (∀ v ∈ finished, WellNamed v) ∧ Sound current := by
  rw [Part.toValue]
  constructor
  · intro h
    cases h with
    | list hitems =>
      refine ⟨fun v hv => hitems v (List.mem_append_left _ hv), ?_⟩
      exact hitems _ (List.mem_append_right _ (List.mem_singleton_self _))
  · rintro ⟨hfinished, hcurrent⟩
    refine .list fun v hv => ?_
    rcases List.mem_append.mp hv with hv | hv
    · exact hfinished v hv
    · rw [List.mem_singleton.mp hv]
      exact hcurrent

/-- A change that keeps the table it is made to sound keeps the whole document sound. -/
theorem Sound.within {change : Body → Except Error Body}
    (hchange : ∀ body result, Sound body → change body = .ok result → Sound result)
    {path : List String} {body result : Body} (h : Sound body)
    (hresult : Body.within change path body = .ok result) : Sound result := by
  induction path generalizing body result with
  | nil => exact hchange body result h hresult
  | cons name path ih =>
    unfold Body.within at hresult
    split at hresult
    · rw [map_eq_ok_iff] at hresult
      obtain ⟨inner, hinner, rfl⟩ := hresult
      exact h.put name (ih sound_empty hinner)
    · rename_i opened inner hget
      rw [map_eq_ok_iff] at hresult
      obtain ⟨changed, hchanged, rfl⟩ := hresult
      exact h.put name (ih (h.of_get?_table hget) hchanged)
    · rename_i finished current hget
      rw [map_eq_ok_iff] at hresult
      obtain ⟨changed, hchanged, rfl⟩ := hresult
      obtain ⟨hfinished, hcurrent⟩ := wellNamed_tables_iff.mp (h.of_get? hget)
      exact h.put name (wellNamed_tables_iff.mpr ⟨hfinished, ih hcurrent hchanged⟩)
    · cases hresult

/-- Opening a table leaves a sound body sound. -/
theorem Sound.openTable {sectionNo : Nat} {name : String} {body result : Body} (h : Sound body)
    (hresult : Body.openTable sectionNo name body = .ok result) : Sound result := by
  unfold Body.openTable at hresult
  split at hresult
  · obtain rfl := Except.ok.inj hresult
    exact h.put name sound_empty
  · rename_i inner hget
    obtain rfl := Except.ok.inj hresult
    exact h.put name (h.of_get?_table hget)
  · cases hresult

/-- Adding a table to an array leaves a sound body sound. -/
theorem Sound.addTable {name : String} {body result : Body} (h : Sound body)
    (hresult : Body.addTable name body = .ok result) : Sound result := by
  unfold Body.addTable at hresult
  split at hresult
  · obtain rfl := Except.ok.inj hresult
    exact h.put name (wellNamed_tables_iff.mpr ⟨by simp, sound_empty⟩)
  · rename_i finished current hget
    obtain rfl := Except.ok.inj hresult
    obtain ⟨hfinished, hcurrent⟩ := wellNamed_tables_iff.mp (h.of_get? hget)
    refine h.put name (wellNamed_tables_iff.mpr ⟨?_, sound_empty⟩)
    intro v hv
    rcases List.mem_append.mp hv with hv | hv
    · exact hfinished v hv
    · rw [List.mem_singleton.mp hv]
      exact hcurrent
  · cases hresult

/-- Assigning a well-named value leaves a sound body sound. -/
theorem Sound.assign {sectionNo : Nat} {v : Value} (hv : WellNamed v) {path : List String}
    {body result : Body} (h : Sound body)
    (hresult : Body.assign sectionNo v path body = .ok result) : Sound result := by
  induction path generalizing body result with
  | nil =>
    obtain rfl := Except.ok.inj hresult
    exact h
  | cons name path ih =>
    cases path with
    | nil =>
      unfold Body.assign at hresult
      split at hresult
      · cases hresult
      · obtain rfl := Except.ok.inj hresult
        exact h.put name hv
    | cons next path =>
      -- a longer key goes on in a table, which is put back whether it was there or is new
      have hinside : ∀ inner : Body, Sound inner →
          ((Body.assign sectionNo v (next :: path) inner).map fun inner =>
            Members.put body name (.table (some sectionNo) inner)) = .ok result →
          Sound result := by
        intro inner hinner hmap
        rw [map_eq_ok_iff] at hmap
        obtain ⟨changed, hchanged, rfl⟩ := hmap
        exact h.put name (ih hinner hchanged)
      unfold Body.assign at hresult
      split at hresult
      · exact hinside [] sound_empty hresult
      · rename_i inner hget
        exact hinside inner (h.of_get?_table hget) hresult
      · rename_i opened inner hget
        split at hresult
        · exact hinside inner (h.of_get?_table hget) hresult
        · cases hresult
      · cases hresult

/-! ## Values -/

/-- A word is well named. -/
theorem wellNamed_of_readWord {cs rest : List Char} {v : Value}
    (h : readWord? cs = some (v, rest)) : WellNamed v := by
  obtain ⟨w, hw, hafter⟩ := List.exists_of_findSome?_eq_some h
  rw [Option.map_eq_some_iff] at hafter
  obtain ⟨more, -, hpair⟩ := hafter
  rw [← (Prod.mk.inj hpair).1]
  have hwords : ∀ w ∈ words, WellNamed w.2 := by
    simp only [words, List.forall_mem_cons, List.not_mem_nil, false_implies, implies_true,
      and_true]
    exact ⟨.bool _, .bool _, .float _ _, .float _ _, .float _ _, .float _ _, .float _ _,
      .float _ _⟩
  exact hwords w hw

/-- A calendar value is well named. -/
theorem wellNamed_of_readMoment {cs rest : List Char} {v : Value}
    (h : readMoment? cs = some (.ok (v, rest))) : WellNamed v := by
  unfold readMoment? at h
  split at h
  · split at h
    · cases h
    · split at h
      · cases h
        exact .moment _
      · split at h <;>
        · cases h
          exact .moment _
  · rw [Option.map_eq_some_iff] at h
    obtain ⟨r, -, hr⟩ := h
    cases hr
    exact .moment _

/-- A number in another base is well named. -/
theorem wellNamed_of_readBased {cs rest : List Char} {v : Value}
    (h : readBased? cs = some (v, rest)) : WellNamed v := by
  have hbase : ∀ base more, readBased?.inBase base more = some (v, rest) → WellNamed v := by
    intro base more hin
    unfold readBased?.inBase at hin
    rw [Option.map_eq_some_iff] at hin
    obtain ⟨r, -, hr⟩ := hin
    cases hr
    exact .int _
  unfold readBased? at h
  split at h
  · exact hbase _ _ h
  · exact hbase _ _ h
  · exact hbase _ _ h
  · cases h

/-- A decimal number is well named. -/
theorem wellNamed_of_readDecimal {cs rest : List Char} {v : Value}
    (h : readDecimal cs = .ok (v, rest)) : WellNamed v := by
  unfold readDecimal at h
  simp only at h
  split at h
  · cases h
  · split at h
    · cases h
      exact .float _ _
    · split at h
      · cases h
      · cases h
        exact .int _

/-- A scalar is well named. -/
theorem wellNamed_of_readScalar {cs rest : List Char} {v : Value}
    (h : readScalar cs = .ok (v, rest)) : WellNamed v := by
  unfold readScalar at h
  split at h
  · rename_i hword
    cases h
    exact wellNamed_of_readWord hword
  · split at h
    · rename_i hmoment
      exact wellNamed_of_readMoment (h ▸ hmoment)
    · split at h
      · rename_i hbased
        cases h
        exact wellNamed_of_readBased hbased
      · exact wellNamed_of_readDecimal h

/-- A value without brackets is well named. -/
theorem wellNamed_of_readSimple {cs rest : List Char} {v : Value}
    (h : readSimple cs = .ok (v, rest)) : WellNamed v := by
  unfold readSimple at h
  split at h
  · rw [map_eq_ok_iff] at h
    obtain ⟨r, -, hr⟩ := h
    cases hr
    exact .text _
  · exact wellNamed_of_readScalar h

section Containers

variable {readOne : Reader Value}
  (hone : ∀ cs v rest, readOne cs = .ok (v, rest) → WellNamed v)

include hone

/-- The items that are read are well named when one is. -/
theorem wellNamed_of_readItems {most : Nat} {cs rest : List Char} {vs : List Value}
    (h : readItems readOne most cs = .ok (vs, rest)) : ∀ v ∈ vs, WellNamed v := by
  induction most generalizing cs rest vs with
  | zero => cases h
  | succ most ih =>
    unfold readItems at h
    rw [bind_eq_ok_iff] at h
    obtain ⟨⟨v, more⟩, hv, h⟩ := h
    rw [bind_eq_ok_iff] at h
    obtain ⟨gap, -, h⟩ := h
    have hfirst : ∀ w ∈ [v], WellNamed w := by
      intro w hw
      rw [List.mem_singleton.mp hw]
      exact hone _ _ _ hv
    split at h
    · cases h
      exact hfirst
    · rw [bind_eq_ok_iff] at h
      obtain ⟨gap, -, h⟩ := h
      split at h
      · cases h
        exact hfirst
      · rw [bind_eq_ok_iff] at h
        obtain ⟨⟨others, more⟩, hothers, h⟩ := h
        cases h
        intro w hw
        rcases List.mem_cons.mp hw with rfl | hw
        · exact hone _ _ _ hv
        · exact ih hothers w hw
    · cases h

/-- An array is well named when its items are. -/
theorem wellNamed_of_readArray {cs rest : List Char} {v : Value}
    (h : readArray readOne cs = .ok (v, rest)) : WellNamed v := by
  unfold readArray at h
  rw [bind_eq_ok_iff] at h
  obtain ⟨gap, -, h⟩ := h
  split at h
  · cases h
    exact .list (by simp)
  · rw [bind_eq_ok_iff] at h
    obtain ⟨⟨vs, more⟩, hvs, h⟩ := h
    cases h
    exact .list (wellNamed_of_readItems hone hvs)

/-- The value of an assignment is well named when values are. -/
theorem wellNamed_of_readAssignment {cs rest : List Char} {key : List String} {v : Value}
    (h : readAssignment readOne cs = .ok ((key, v), rest)) : WellNamed v := by
  unfold readAssignment at h
  rw [bind_eq_ok_iff] at h
  obtain ⟨key', -, h⟩ := h
  split at h
  · rw [bind_eq_ok_iff] at h
    obtain ⟨⟨w, more⟩, hw, h⟩ := h
    cases h
    exact hone _ _ _ hw
  · cases h

/-- An inline table read into a sound body is well named. -/
theorem wellNamed_of_readMembers {most : Nat} {body : Body} {cs rest : List Char} {v : Value}
    (hbody : Sound body) (h : readMembers readOne most body cs = .ok (v, rest)) : WellNamed v := by
  induction most generalizing body cs with
  | zero => cases h
  | succ most ih =>
    unfold readMembers at h
    rw [bind_eq_ok_iff] at h
    obtain ⟨⟨⟨key, w⟩, more⟩, hw, h⟩ := h
    simp only at h
    rw [bind_eq_ok_iff] at h
    obtain ⟨grown, hgrown, h⟩ := h
    have hsound : Sound grown := hbody.assign (wellNamed_of_readAssignment hone hw) hgrown
    split at h
    · cases h
      exact hsound
    · exact ih hsound h
    · cases h

/-- An inline table is well named when values are. -/
theorem wellNamed_of_readInlineTable {cs rest : List Char} {v : Value}
    (h : readInlineTable readOne cs = .ok (v, rest)) : WellNamed v := by
  unfold readInlineTable at h
  split at h
  · cases h
    exact Value.wellNamed_empty
  · exact wellNamed_of_readMembers hone sound_empty h

end Containers

/-- Every value is well named, however deep it is. -/
theorem wellNamed_of_readValueWithin {left : Nat} {cs rest : List Char} {v : Value}
    (h : readValueWithin left cs = .ok (v, rest)) : WellNamed v := by
  induction left using Nat.strongRecOn generalizing cs rest v with
  | ind left ih =>
    unfold readValueWithin at h
    split at h
    · exact wellNamed_of_readInlineTable (fun _ _ _ hv => ih _ (by omega) hv) h
    · cases h
    · exact wellNamed_of_readArray (fun _ _ _ hv => ih _ (by omega) hv) h
    · cases h
    · exact wellNamed_of_readSimple h

/-! ## Documents -/

/-- The value that a statement assigns, if it is an assignment, repeats no name. -/
def Statement.IsSound : Statement → Prop
  | .assign _ v => WellNamed v
  | .table _ => True
  | .tables _ => True

/-- Every statement is sound. -/
theorem isSound_of_readStatement {cs rest : List Char} {statement : Statement}
    (h : readStatement cs = .ok (some statement, rest)) : statement.IsSound := by
  unfold readStatement at h
  split at h
  · cases h
  · cases h
  · cases h
  · rw [map_eq_ok_iff] at h
    obtain ⟨r, -, hr⟩ := h
    cases hr
    trivial
  · rw [map_eq_ok_iff] at h
    obtain ⟨r, -, hr⟩ := h
    cases hr
    trivial
  · rw [map_eq_ok_iff] at h
    obtain ⟨⟨⟨key, v⟩, more⟩, hv, hr⟩ := h
    cases hr
    exact wellNamed_of_readAssignment (fun _ _ _ hone => wellNamed_of_readValueWithin hone) hv

/-- The statement on a line is sound. -/
theorem isSound_of_readLine {cs rest : List Char} {statement : Option Statement}
    (h : readLine cs = .ok (statement, rest)) : ∀ s ∈ statement, s.IsSound := by
  intro s hs
  unfold readLine at h
  rw [bind_eq_ok_iff] at h
  obtain ⟨⟨read, more⟩, hread, h⟩ := h
  simp only at h
  rw [bind_eq_ok_iff] at h
  obtain ⟨gap, -, h⟩ := h
  split at h
  · cases h
    rw [Option.mem_def.mp hs] at hread
    exact isSound_of_readStatement hread
  · cases h
    rw [Option.mem_def.mp hs] at hread
    exact isSound_of_readStatement hread
  · cases h

/-- The statements of a document are sound. -/
theorem isSound_of_readLines (most : Nat) (cs : List Char) :
    ∀ s ∈ (readLines most cs).1, s.IsSound := by
  induction most generalizing cs with
  | zero =>
    unfold readLines
    simp
  | succ most ih =>
    cases cs with
    | nil => simp [readLines]
    | cons c cs =>
      cases hline : readLine (c :: cs) with
      | error e => simp [readLines, hline]
      | ok r =>
        obtain ⟨statement, more⟩ := r
        intro s hs
        simp only [readLines, hline] at hs
        rcases List.mem_append.mp hs with hs | hs
        · exact isSound_of_readLine hline s (Option.mem_toList.mp hs)
        · exact ih more s hs

/-- A change below a key leaves a sound body sound when it does so at the end of the key. -/
theorem sound_of_enter {p q : Progress} {key : List String}
    {change : Nat → String → Body → Except Error Body}
    (hchange : ∀ sectionNo name body result, Sound body →
      change sectionNo name body = .ok result → Sound result)
    (h : Sound p.body) (hq : p.enter key change = .ok q) : Sound q.body := by
  unfold Progress.enter at hq
  rw [map_eq_ok_iff] at hq
  obtain ⟨body, hbody, rfl⟩ := hq
  exact h.within (fun body result hs hr => hchange _ _ body result hs hr) hbody

/-- A sound statement leaves a sound body sound. -/
theorem sound_of_step {p q : Progress} {statement : Statement} (h : Sound p.body)
    (hstatement : statement.IsSound) (hq : p.step statement = .ok q) : Sound q.body := by
  cases statement with
  | assign key v =>
    simp only [Progress.step, map_eq_ok_iff] at hq
    obtain ⟨body, hbody, rfl⟩ := hq
    exact h.within (fun _ _ hs hr => hs.assign hstatement hr) hbody
  | table key => exact sound_of_enter (fun _ _ _ _ hs hr => hs.openTable hr) h hq
  | tables key => exact sound_of_enter (fun _ _ _ _ hs hr => hs.addTable hr) h hq

/-- Sound statements leave a sound body sound. -/
theorem sound_of_foldlM {statements : List Statement} {p q : Progress} (h : Sound p.body)
    (hstatements : ∀ s ∈ statements, s.IsSound)
    (hq : statements.foldlM Progress.step p = .ok q) : Sound q.body := by
  induction statements generalizing p with
  | nil =>
    cases hq
    exact h
  | cons statement statements ih =>
    rw [List.foldlM_cons, bind_eq_ok_iff] at hq
    obtain ⟨next, hnext, hq⟩ := hq
    have hsound := sound_of_step h (hstatements statement List.mem_cons_self) hnext
    exact ih hsound (fun s hs => hstatements s (List.mem_cons_of_mem _ hs)) hq

/-- No table of a document repeats a name. -/
theorem wellNamed_of_read {s : String} {t : Value.Table} (h : read s = .ok t) :
    WellNamed (.record t) := by
  unfold read at h
  simp only at h
  split at h
  · cases h
  · cases h
  · rename_i p hsteps hending
    cases h
    exact sound_of_foldlM sound_empty (isSound_of_readLines _ _) hsteps

end LintGateway.Toml
