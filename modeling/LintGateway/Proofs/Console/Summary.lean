import LintGateway.Console.Summary
import LintGateway.Proofs.Occurrences
import LintGateway.Proofs.Path
import Mathlib.Algebra.BigOperators.Group.List.Lemmas
import Mathlib.Algebra.GroupWithZero.Nat
import Mathlib.Data.Finset.Card
import Mathlib.Data.List.Sort

/-!
# The summary accounts for every issue

The summary counts by keeping a count for each label met so far, in the order in which they are met,
and sorts the counts at the end. What matters of the counts is only which label has which
(`mem_tally_iff`), and that no label has two; the sorted lines are then the only ones that name each
label with its count, in their order (`Accounts.eq`). Issues in another order have the same labels
as often, so they have the same lines.
-/

set_option autoImplicit false

namespace LintGateway

namespace Summary

/-! ## Counting texts -/

/-- One more label raises the number of its own kind by one. -/
theorem tally_append_singleton (labels : List String) (label : String) :
    tally (labels ++ [label]) =
      Members.put (tally labels) label ((Members.get? (tally labels) label).getD 0 + 1) := by
  unfold tally
  rw [List.foldl_append]
  rfl

/-- What is found under a text is how often it was met. -/
theorem get?_tally (labels : List String) (label : String) :
    Members.get? (tally labels) label =
      if label ∈ labels then some (labels.count label) else none := by
  induction labels using List.reverseRecOn with
  | nil => rfl
  | append_singleton labels last ih =>
    rw [tally_append_singleton, Members.get?_put]
    by_cases hlabel : label = last
    · subst hlabel
      rw [if_pos rfl, ih]
      by_cases hmem : label ∈ labels
      · simp [hmem]
      · simp [hmem, List.count_eq_zero_of_not_mem hmem]
    · simp [hlabel, ih, List.count_append, Ne.symm hlabel]

/-- Each text that is met has a count, in the order in which they are met. -/
theorem names_tally (labels : List String) :
    Members.names (tally labels) = labels.eraseDups := by
  induction labels using List.reverseRecOn with
  | nil => rfl
  | append_singleton labels last ih =>
    rw [tally_append_singleton, Members.names_put, ih, eraseDups_append_singleton]
    simp only [List.mem_eraseDups]

/-- No label is counted in two places. -/
theorem nodup_names_tally (labels : List String) : (Members.names (tally labels)).Nodup := by
  rw [names_tally]
  exact nodup_eraseDups labels

/-- The counts are the labels that occur, each with how often it does. -/
theorem mem_tally_iff (labels : List String) (label : String) (n : Nat) :
    (label, n) ∈ tally labels ↔ label ∈ labels ∧ n = labels.count label := by
  rw [← Members.get?_eq_some_iff (nodup_names_tally labels), get?_tally]
  by_cases hmem : label ∈ labels
  · simp [hmem, eq_comm]
  · simp [hmem]

/-- There are as many counts as there are different texts. -/
theorem length_tally (labels : List String) : (tally labels).length = labels.toFinset.card := by
  have hsame : labels.eraseDups.toFinset = labels.toFinset := by
    ext label
    rw [List.mem_toFinset, List.mem_toFinset, List.mem_eraseDups]
  rw [← hsame, List.toFinset_card_of_nodup (nodup_eraseDups labels), ← names_tally]
  exact (List.length_map _).symm

/-! ## The lines of the rules -/

/-- A line stands before another: its count is larger, or the counts are equal and its label is the
smaller one by code point. -/
def StandsBefore (a b : String × Nat) : Prop := b.2 < a.2 ∨ (a.2 = b.2 ∧ a.1 < b.1)

instance : Std.Irrefl StandsBefore where
  irrefl a := by
    rintro (hcount | ⟨-, hlabel⟩)
    · exact Nat.lt_irrefl _ hcount
    · exact String.lt_irrefl _ hlabel

instance : Std.Antisymm StandsBefore where
  antisymm a b hab hba := by
    rcases hab with hab | ⟨heq, hab⟩ <;> rcases hba with hba | ⟨heq', hba⟩
    · omega
    · omega
    · omega
    · exact absurd (String.lt_trans hab hba) (String.lt_irrefl _)

/-- Labels with counts account for issues: each label of an issue has one count, which is the number
of issues with that label, all of them together count the issues, and they stand in order. -/
structure Accounts (is : List Issue) (rules : List (String × Nat)) : Prop where
  once : (rules.map Prod.fst).Nodup
  counts : ∀ label n, (label, n) ∈ rules ↔
    (∃ i ∈ is, i.label = label) ∧ n = is.countP fun i => i.label = label
  total : (rules.map Prod.snd).sum = is.length
  ordered : rules.Pairwise StandsBefore

/-- There is only one way to account for issues. -/
theorem Accounts.eq {is : List Issue} {rules others : List (String × Nat)}
    (h : Accounts is rules) (h' : Accounts is others) : rules = others := by
  refine h.ordered.eq_of_mem_iff h'.ordered fun r => ?_
  obtain ⟨label, n⟩ := r
  rw [h.counts, h'.counts]

/-- What accounts for issues accounts for them in any order. -/
theorem Accounts.of_perm {is js : List Issue} {rules : List (String × Nat)}
    (h : Accounts is rules) (hperm : js.Perm is) : Accounts js rules where
  once := h.once
  counts := by
    intro label n
    rw [h.counts, hperm.countP_eq]
    simp only [hperm.mem_iff]
  total := h.total.trans hperm.length_eq.symm
  ordered := h.ordered

/-- A label occurs as often as issues have it. -/
theorem count_label (is : List Issue) (label : String) :
    (is.map Issue.label).count label = is.countP fun i => i.label = label := by
  rw [List.count_eq_countP, List.countP_map]
  exact List.countP_congr fun i _ => by simp

/-- The counts of texts, one for each text, add up to the number of texts. -/
theorem sum_tally (labels : List String) : ((tally labels).map Prod.snd).sum = labels.length := by
  have hcounts : (tally labels).map Prod.snd =
      (Members.names (tally labels)).map fun label => labels.count label := by
    unfold Members.names
    rw [List.map_map]
    exact List.map_congr_left fun r hr => ((mem_tally_iff labels r.1 r.2).mp hr).2
  have hperm : (Members.names (tally labels)).Perm labels.dedup := by
    refine (List.perm_ext_iff_of_nodup (nodup_names_tally labels) labels.nodup_dedup).mpr ?_
    simp [names_tally]
  rw [hcounts, (hperm.map _).sum_eq]
  exact labels.sum_map_count_dedup_eq_length

/-- Lines of different labels stand in order once they are sorted. -/
theorem pairwise_mergeSort_precedes {rules : List (String × Nat)}
    (h : (rules.map Prod.fst).Nodup) : (rules.mergeSort precedes).Pairwise StandsBefore := by
  have hle : ∀ a b, precedes a b = true ↔ b.2 < a.2 ∨ (a.2 = b.2 ∧ a.1 ≤ b.1) := by
    simp [precedes]
  have hsort : (rules.mergeSort precedes).Pairwise fun a b => precedes a b = true := by
    apply List.pairwise_mergeSort
    · intro a b c hab hbc
      rw [hle] at hab hbc ⊢
      rcases hab with hab | ⟨hab, hlabel⟩ <;> rcases hbc with hbc | ⟨hbc, hlabel'⟩
      · left; omega
      · left; omega
      · left; omega
      · exact Or.inr ⟨hab.trans hbc, String.le_trans hlabel hlabel'⟩
    · intro a b
      rw [Bool.or_eq_true, hle, hle]
      rcases Nat.lt_trichotomy a.2 b.2 with hlt | heq | hlt
      · exact Or.inr (Or.inl hlt)
      · exact (String.le_total a.1 b.1).imp (fun hle => Or.inr ⟨heq, hle⟩)
          fun hle => Or.inr ⟨heq.symm, hle⟩
      · exact Or.inl (Or.inl hlt)
  have hne : (rules.mergeSort precedes).Pairwise fun a b => a.1 ≠ b.1 := by
    have hnodup := ((List.mergeSort_perm rules precedes).map Prod.fst).nodup_iff.mpr h
    exact List.pairwise_map.mp hnodup
  refine hsort.imp₂ (fun a b hab hne => ?_) hne
  exact ((hle a b).mp hab).imp_right fun ⟨hcount, hlabel⟩ =>
    ⟨hcount, Std.lt_of_le_of_ne hlabel hne⟩

/-- The lines of the rules account for the issues. -/
theorem accounts_ofIssues (is : List Issue) : Accounts is (ofIssues is).rules := by
  have hperm : (ofIssues is).rules.Perm (tally (is.map Issue.label)) :=
    List.mergeSort_perm _ _
  have honce : ((tally (is.map Issue.label)).map Prod.fst).Nodup := nodup_names_tally _
  exact
    { once := (hperm.map Prod.fst).nodup_iff.mpr honce
      counts := by
        intro label n
        rw [hperm.mem_iff, mem_tally_iff, count_label, List.mem_map]
      total := by
        rw [(hperm.map Prod.snd).sum_eq, sum_tally, List.length_map]
      ordered := pairwise_mergeSort_precedes honce }

/-- The number of files is that of the different paths. -/
theorem files_ofIssues (is : List Issue) :
    (ofIssues is).files = (is.map fun i => i.file.toText).toFinset.card :=
  length_tally _

/-- Issues in another order have the same summary. -/
theorem ofIssues_eq_of_perm {is js : List Issue} (hperm : js.Perm is) :
    ofIssues js = ofIssues is := by
  have hrules : (ofIssues js).rules = (ofIssues is).rules :=
    (accounts_ofIssues js).eq ((accounts_ofIssues is).of_perm hperm)
  have hfiles : (ofIssues js).files = (ofIssues is).files := by
    rw [files_ofIssues, files_ofIssues, List.toFinset_eq_of_perm _ _ (hperm.map _)]
  have hissues : (ofIssues js).issues = (ofIssues is).issues := hperm.length_eq
  unfold ofIssues
  rw [Summary.mk.injEq]
  exact ⟨hissues, hfiles, hrules⟩

end Summary

/-! ## What is written -/

/-- Files of paths that were read from texts have the same path when they have the same text. -/
theorem InputFile.path_eq_of_toText {f g : InputFile} (hf : f.path.IsPlain) (hg : g.path.IsPlain)
    (h : f.toText = g.toText) : f.path = g.path := by
  rw [← Path.ofText_toText hf (Or.inl f.isAbsolute), ← Path.ofText_toText hg (Or.inl g.isAbsolute)]
  exact congrArg Path.ofText h

/-- Paths that were read from texts are as many as their texts. -/
theorem card_paths {is : List Issue} (h : ∀ i ∈ is, i.file.path.IsPlain) :
    (is.map fun i => i.file.toText).toFinset.card =
      (is.map fun i => i.file.path).toFinset.card := by
  have htexts : (is.map fun i => i.file.toText).toFinset =
      (is.map fun i => i.file.path).toFinset.image Path.toText := by
    ext text
    simp [InputFile.toText]
  rw [htexts, Finset.card_image_of_injOn]
  intro p hp q hq hsame
  simp only [Finset.mem_coe, List.mem_toFinset, List.mem_map] at hp hq
  obtain ⟨i, hi, rfl⟩ := hp
  obtain ⟨j, hj, rfl⟩ := hq
  exact InputFile.path_eq_of_toText (h i hi) (h j hj) hsame

namespace Console

/-- A summary of some issues is a head, a headline and a line for each rule. -/
theorem summary_eq {is : List Issue} (h : is ≠ []) (s : Screen) (title : String)
    (withGlyphs : Bool) :
    summary s title withGlyphs is = (sectionHead s title).map fun head => head ++
      (status s .findings withGlyphs 0 (Summary.ofIssues is).headline ++
        String.join ((Summary.ofIssues is).rules.map fun r =>
          status s .detail withGlyphs Summary.ruleIndent (Summary.ruleLine r))) := by
  have hempty : is.isEmpty = false := by simpa using h
  unfold summary
  simp only [hempty, Bool.false_eq_true, if_false]

/-- The summary of issues, of which there is at least one, is a headline and a line for each label
of an issue. The headline has the number of issues and the number of texts of their paths, which is
the number of their paths when these were read from texts. The lines name each label once, with the
number of issues that have it; these numbers add up to that of the headline, and the lines stand in
the order of falling numbers and then of labels. All of this is the same, line by line, for the
issues in any order. -/
theorem summary_accounts_for_issues {is : List Issue} (h : is ≠ []) :
    ∃ rules, Summary.Accounts is rules ∧
      (∀ js, js.Perm is → ∀ s title withGlyphs, summary s title withGlyphs js =
        (sectionHead s title).map fun head => head ++
          (status s .findings withGlyphs 0
              (toString is.length ++ " issue(s) found, " ++
                toString (is.map fun i => i.file.toText).toFinset.card ++
                " file(s) affected") ++
            String.join (rules.map fun r =>
              status s .detail withGlyphs 2 (r.1 ++ ": " ++ toString r.2)))) ∧
      ((∀ i ∈ is, i.file.path.IsPlain) → (is.map fun i => i.file.toText).toFinset.card =
        (is.map fun i => i.file.path).toFinset.card) := by
  refine ⟨(Summary.ofIssues is).rules, Summary.accounts_ofIssues is, ?_, card_paths⟩
  intro js hperm s title withGlyphs
  have hjs : js ≠ [] := fun hnil => h (List.nil_perm.mp (hnil ▸ hperm))
  rw [summary_eq hjs, Summary.ofIssues_eq_of_perm hperm, ← Summary.files_ofIssues]
  rfl

/-- An issue of an active rule at a line of a file. -/
def duplicateAt (file : InputFile) (line : Schema.LineNumber) : Issue :=
  .normalized { file, line, message := "dup", key := ⟨"css", "S4666"⟩ }

/-- Two issues of an active rule in one file, and between them one that was reported elsewhere, in
another file. -/
def mixedIssues : List Issue :=
  [duplicateAt ⟨⟨.root, ["base.css"]⟩, some "css", rfl⟩ ⟨3, by decide⟩,
    .external
      { engine := ExternalIssue.standardEngine
        ruleId := "block-no-empty"
        file := ⟨⟨.root, ["theme.css"]⟩, some "css", rfl⟩
        line := ⟨3, by decide⟩
        message := "empty"
        severity := .warning },
    duplicateAt ⟨⟨.root, ["base.css"]⟩, some "css", rfl⟩ ⟨7, by decide⟩]

/-- The three issues are of two rules and in two files, in whichever order they come. -/
theorem summary_accounts_for_issues_mixed :
    mixedIssues ≠ [] ∧ mixedIssues.reverse.Perm mixedIssues ∧
      (∀ i ∈ mixedIssues, i.file.path.IsPlain) ∧
      ∃ rules : List (String × Nat), ("css:S4666", 2) ∈ rules ∧
        ("external_stylelint:block-no-empty", 1) ∈ rules ∧ (rules.map Prod.snd).sum = 3 ∧
        summary ⟨.plain, false⟩ "stylelint" false mixedIssues.reverse =
          .ok ("\n--- stylelint ---\n" ++
            ("3 issue(s) found, 2 file(s) affected\n" ++
              String.join (rules.map fun r =>
                status ⟨.plain, false⟩ .detail false 2 (r.1 ++ ": " ++ toString r.2)))) := by
  have hne : mixedIssues ≠ [] := by decide
  have hreverse : mixedIssues.reverse.Perm mixedIssues := List.reverse_perm _
  have hplain : ∀ i ∈ mixedIssues, i.file.path.IsPlain := by
    intro i hi
    simp only [mixedIssues, List.mem_cons, List.not_mem_nil, or_false] at hi
    rcases hi with rfl | rfl | rfl <;> unfold Path.IsPlain <;> decide
  obtain ⟨rules, haccounts, hwritten, hfiles⟩ := summary_accounts_for_issues hne
  refine ⟨hne, hreverse, hplain, rules, ?_, ?_, haccounts.total, ?_⟩
  · exact (haccounts.counts _ _).mpr ⟨⟨_, List.mem_cons_self, rfl⟩, by decide⟩
  · exact (haccounts.counts _ _).mpr ⟨⟨_, .tail _ (.head _), rfl⟩, by decide⟩
  · rw [hwritten _ hreverse, hfiles hplain]
    rfl

end Console

end LintGateway
