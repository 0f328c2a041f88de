import LintGateway.Value.Basic

/-!
# Sorting by a name

Rules, members and entries are put in the order of a name that no two of them share. The sorted list
is then strictly increasing, and since there is only one such list of the same items, the order in
which they came makes no difference.
-/

set_option autoImplicit false

namespace LintGateway

variable {α : Type} {name : α → String}

/-- Items of different names have them strictly increasing once they are sorted. -/
theorem pairwise_mergeSort_name {as : List α} (h : (as.map name).Nodup) :
    (as.mergeSort fun a b => name a ≤ name b).Pairwise fun a b => name a < name b := by
  have hsort : (as.mergeSort fun a b => name a ≤ name b).Pairwise fun a b =>
      decide (name a ≤ name b) = true := by
    apply List.pairwise_mergeSort
    · intro a b c hab hbc
      rw [decide_eq_true_eq] at hab hbc ⊢
      exact String.le_trans hab hbc
    · intro a b
      rw [Bool.or_eq_true, decide_eq_true_eq, decide_eq_true_eq]
      exact String.le_total _ _
  have hnodup : ((as.mergeSort fun a b => name a ≤ name b).map name).Nodup :=
    ((List.mergeSort_perm as _).map name).nodup_iff.mpr h
  have hne : (as.mergeSort fun a b => name a ≤ name b).Pairwise fun a b => name a ≠ name b :=
    List.pairwise_map.mp hnodup
  exact hsort.imp₂ (fun _ _ hle hne => Std.lt_of_le_of_ne (of_decide_eq_true hle) hne) hne

/-- The order in which items of different names come makes no difference. -/
theorem mergeSort_name_eq_of_perm {as bs : List α} (hperm : as.Perm bs)
    (h : (bs.map name).Nodup) :
    (as.mergeSort fun a b => name a ≤ name b) = bs.mergeSort fun a b => name a ≤ name b := by
  have has : (as.map name).Nodup := (hperm.map name).nodup_iff.mpr h
  refine List.Perm.eq_of_pairwise ?_ (pairwise_mergeSort_name has) (pairwise_mergeSort_name h) ?_
  · intro a b _ _ hab hba
    exact absurd (String.lt_trans hab hba) (String.lt_irrefl _)
  · exact (List.mergeSort_perm as _).trans (hperm.trans (List.mergeSort_perm bs _).symm)

end LintGateway
