import LintGateway.Json.Writer
import LintGateway.Proofs.Sorting
import LintGateway.Proofs.Traversal
import LintGateway.Proofs.Value.Names
import Mathlib.Data.List.Nodup
import Mathlib.Data.List.Perm.Subperm

/-!
# Documents up to the order of members

JSON has one kind of sequence, the members of an object have no order in it, and whether two floats
are one object is not to be seen. Two values that differ only in these respects are the same
document; truth values, integers and texts are told apart whatever they look like. The writer puts
members in the order of their names, so the same document is always written as the same text.
-/

set_option autoImplicit false

namespace LintGateway

/-- The items of a sequence of either kind. -/
def Value.items? : Value → Option (List Value)
  | .list items => some items
  | .tuple items => some items
  | _ => none

namespace Json

/-- Two values that are one document up to the order of the members of its objects. -/
inductive SameDocument : Value → Value → Prop where
  | null : SameDocument .null .null
  | bool (b : Bool) : SameDocument (.bool b) (.bool b)
  | int (n : Int) : SameDocument (.int n) (.int n)
  | float (x : Float) (object other : Option Nat) : SameDocument (.float x object) (.float x other)
  | text (s : String) : SameDocument (.text s) (.text s)
  | sequence {v w : Value} {vs ws : List Value} (hv : v.items? = some vs) (hw : w.items? = some ws)
      (hlength : vs.length = ws.length) (h : ∀ p ∈ vs.zip ws, SameDocument p.1 p.2) :
      SameDocument v w
  | record {ms ns : Value.Table} (hnames : (Members.names ms).Perm (Members.names ns))
      (h : ∀ m ∈ ms, ∀ n ∈ ns, m.1 = n.1 → SameDocument m.2 n.2) :
      SameDocument (.record ms) (.record ns)

/-- Each member has a namesake among members of the same names. -/
theorem exists_mem_of_names_perm {α β : Type} {ms : Members α} {ns : Members β}
    (h : ms.names.Perm ns.names) {m : String × α} (hm : m ∈ ms) : ∃ n ∈ ns, n.1 = m.1 :=
  List.mem_map.mp (h.mem_iff.mp (List.mem_map_of_mem hm))

/-- Lists of one length are related item by item when the items at each place are. -/
theorem forall₂_of_zip {α β : Type} {r : α → β → Prop} {as : List α} {bs : List β}
    (hlength : as.length = bs.length) (h : ∀ p ∈ as.zip bs, r p.1 p.2) : List.Forall₂ r as bs :=
  List.forall₂_iff_zip.mpr ⟨hlength, fun hp => h _ hp⟩

/-- Sequences are the same document when their items are, one by one. -/
theorem SameDocument.of_items {v w : Value} {vs ws : List Value} (hv : v.items? = some vs)
    (hw : w.items? = some ws) (h : List.Forall₂ SameDocument vs ws) : SameDocument v w := by
  obtain ⟨hlength, hzip⟩ := List.forall₂_iff_zip.mp h
  exact .sequence hv hw hlength fun p hp => hzip hp

/-- Being the same document goes both ways. -/
theorem SameDocument.symm {v w : Value} (h : SameDocument v w) : SameDocument w v := by
  induction h with
  | null => exact .null
  | bool b => exact .bool b
  | int n => exact .int n
  | float x object other => exact .float x other object
  | text s => exact .text s
  | sequence hv hw hlength _ ih =>
    exact .of_items hw hv (List.Forall₂.flip (forall₂_of_zip hlength ih))
  | record hnames _ ih =>
    exact .record hnames.symm fun n hn m hm hname => ih m hm n hn hname.symm

/-- Being the same document as one between is being the same document. -/
theorem SameDocument.trans {u v w : Value} (h : SameDocument u v) (h' : SameDocument v w) :
    SameDocument u w := by
  induction h generalizing w with
  | null => exact h'
  | bool b => exact h'
  | int n => exact h'
  | float x object => cases h' with
    | float _ _ other => exact .float x object other
    | sequence hv => cases hv
  | text s => exact h'
  | sequence hu hv hlength _ ih =>
    cases h' with
    | sequence hv' hw hlength' h' =>
      obtain rfl := Option.some.inj (hv.symm.trans hv')
      have hnext := forall₂_of_zip (r := fun u v => ∀ w, SameDocument v w → SameDocument u w)
        hlength fun p hp w hw => ih p hp hw
      refine .of_items hu hw (forall₂_comp hnext (forall₂_of_zip hlength' h') ?_)
      exact fun _ _ _ w hnext hvw => hnext w hvw
    -- a sequence has items and nothing else has
    | _ => cases hv
  | record hnames _ ih =>
    cases h' with
    | sequence hv _ _ _ => cases hv
    | record hnames' h' =>
      refine .record (hnames.trans hnames') fun m hm p hp hname => ?_
      obtain ⟨n, hn, hsame⟩ := exists_mem_of_names_perm hnames hm
      exact ih m hm n hn hsame.symm (h' n hn p hp (hsame.trans hname))

/-! ## The same document has the same text -/

/-- The items of a sequence are written one after the other. -/
theorem writeItems_eq_mapM (vs : List Value) : writeItems vs = vs.mapM write := by
  induction vs with
  | nil => rfl
  | cons v vs ih => rw [writeItems, ih, List.mapM_cons]

/-- Each member is written under its name. -/
theorem writeMembers_eq_map (ms : Value.Table) :
    writeMembers ms = ms.map fun m => (m.1, write m.2) := by
  induction ms with
  | nil => rfl
  | cons m ms ih => rw [writeMembers, ih, List.map_cons]

/-- The form of an object whose members are already written. -/
def joinMembers (ts : List (String × List Char)) : List Char :=
  encloseMembers (ts.mergeSort fun a b => a.1 ≤ b.1)

/-- A sequence of either kind is written when each of its items is. -/
theorem write?_eq_some_iff_of_items? {v : Value} {vs : List Value} (h : v.items? = some vs)
    {t : List Char} :
    write? v = some t ↔
      ∃ ts, List.Forall₂ (fun v t => write? v = some t) vs ts ∧ joinItems ts = t := by
  have hwrite : write v = (writeItems vs).map joinItems := by
    cases v <;> cases h <;> rfl
  simp only [write?_eq_some_iff, hwrite, map_eq_ok_iff, writeItems_eq_mapM, mapM_eq_ok_iff]

/-- Members that are all written are put in order once their names are. -/
theorem inOrder_writeMembers {ms : Value.Table} {ts : List (String × List Char)}
    (h : List.Forall₂ (fun m t => m.1 = t.1 ∧ write m.2 = .ok t.2) ms ts) :
    inOrder (writeMembers ms) = .ok (ts.mergeSort fun a b => a.1 ≤ b.1) := by
  have hforms : writeMembers ms = ts.map fun t => (t.1, .ok t.2) := by
    rw [writeMembers_eq_map]
    refine List.forall₂_eq_eq_eq ▸ ?_
    rw [List.forall₂_map_left_iff, List.forall₂_map_right_iff]
    exact h.imp fun _ _ hm => Prod.ext hm.1 hm.2
  have hsorted : (writeMembers ms).mergeSort (fun a b => a.1 ≤ b.1) =
      (ts.mergeSort fun a b => a.1 ≤ b.1).map fun t => (t.1, .ok t.2) := by
    rw [hforms]
    refine (List.map_mergeSort ?_).symm
    intro t _ u _
    rfl
  unfold inOrder
  rw [hsorted, mapM_eq_ok_iff, List.forall₂_map_left_iff, List.forall₂_same]
  exact fun _ _ => rfl

/-- An object is written when the value of each of its members is. -/
theorem write?_record_eq_some_iff {ms : Value.Table} {t : List Char} :
    write? (.record ms) = some t ↔
      ∃ ts, List.Forall₂ (fun m t => m.1 = t.1 ∧ write? m.2 = some t.2) ms ts ∧
        joinMembers ts = t := by
  simp only [write?_eq_some_iff]
  rw [write, map_eq_ok_iff]
  constructor
  · rintro ⟨us, hus, ht⟩
    -- no member is missing from the sorted list, so each has a form
    have heach : ∀ m ∈ ms, ∃ u : String × List Char, m.1 = u.1 ∧ write m.2 = .ok u.2 := by
      intro m hm
      have hmem : (m.1, write m.2) ∈ (writeMembers ms).mergeSort fun a b => a.1 ≤ b.1 := by
        rw [List.mem_mergeSort, writeMembers_eq_map]
        exact List.mem_map_of_mem hm
      obtain ⟨u, -, hu⟩ := exists_mem_of_forall₂ ((mapM_eq_ok_iff _ _ _).mp hus) hmem
      obtain ⟨form, hform, -⟩ := (map_eq_ok_iff _ _ _).mp hu
      exact ⟨(m.1, form), rfl, hform⟩
    obtain ⟨ts, hts⟩ := (exists_forall₂_iff _ ms).mpr heach
    obtain rfl := Except.ok.inj ((inOrder_writeMembers hts).symm.trans hus)
    exact ⟨ts, hts, ht⟩
  · rintro ⟨ts, hts, ht⟩
    exact ⟨_, inOrder_writeMembers hts, ht⟩

end Json

end LintGateway
