import Mathlib.Data.List.Induction

/-!
# Each item once, where it comes first

Several lists are kept without repetition, and an item that comes again changes nothing: tracked
files, suffixes. What is kept then is `List.eraseDups` of what was given, in which one item stands
before another when it was met first.
-/

set_option autoImplicit false

namespace LintGateway

variable {α : Type}

/-- In a list `a` is met before `b` is. -/
def ComesFirst (items : List α) (a b : α) : Prop :=
  ∃ before after, items = before ++ a :: after ∧ b ∉ before ++ [a]

/-- What comes first is something else. -/
theorem ComesFirst.ne {items : List α} {a b : α} (h : ComesFirst items a b) : a ≠ b := by
  obtain ⟨before, after, -, hnew⟩ := h
  rintro rfl
  exact hnew (List.mem_append_right before List.mem_cons_self)

/-- What comes first does so still when more items follow. -/
theorem ComesFirst.append {items : List α} {a b : α} (h : ComesFirst items a b)
    (more : List α) : ComesFirst (items ++ more) a b := by
  obtain ⟨before, after, rfl, hnew⟩ := h
  exact ⟨before, after ++ more, by simp, hnew⟩

/-- An item comes before one that does not occur. -/
theorem comesFirst_of_not_mem {items : List α} {a b : α} (ha : a ∈ items) (hb : b ∉ items) :
    ComesFirst items a b := by
  obtain ⟨before, after, rfl⟩ := List.append_of_mem ha
  refine ⟨before, after, rfl, ?_⟩
  intro hmem
  have hstart : before ++ [a] ⊆ before ++ a :: after := by simp
  exact hb (hstart hmem)

variable [BEq α] [LawfulBEq α]

/-- A last item stays only when it did not occur before. -/
theorem eraseDups_append_singleton (items : List α) (a : α) [Decidable (a ∈ items)] :
    (items ++ [a]).eraseDups = if a ∈ items then items.eraseDups else items.eraseDups ++ [a] := by
  rw [List.eraseDups_append]
  split <;> simp [List.removeAll, List.eraseDups_cons, *]

/-- The items that are kept stand in the order in which they are met. -/
theorem pairwise_eraseDups (items : List α) : items.eraseDups.Pairwise (ComesFirst items) := by
  classical
  induction items using List.reverseRecOn with
  | nil => simp
  | append_singleton items a ih =>
    have hitems := ih.imp fun h => h.append [a]
    rw [eraseDups_append_singleton]
    split
    · exact hitems
    · rename_i hnew
      apply List.pairwise_append.mpr
      refine ⟨hitems, List.pairwise_singleton _ _, ?_⟩
      intro b hb c hc
      rw [List.mem_singleton.mp hc]
      exact (comesFirst_of_not_mem (List.mem_eraseDups.mp hb) hnew).append [a]

/-- Without its repetitions a list holds nothing twice. -/
theorem nodup_eraseDups (items : List α) : items.eraseDups.Nodup :=
  (pairwise_eraseDups items).imp ComesFirst.ne

/-- Nothing is left out of items that do not repeat. -/
theorem eraseDups_of_nodup {items : List α} (h : items.Nodup) : items.eraseDups = items := by
  classical
  induction items using List.reverseRecOn with
  | nil => simp
  | append_singleton items a ih =>
    obtain ⟨hitems, -, hnew⟩ := List.nodup_append.mp h
    have ha : a ∉ items := fun hmem => hnew a hmem a List.mem_cons_self rfl
    rw [eraseDups_append_singleton, if_neg ha, ih hitems]

end LintGateway
