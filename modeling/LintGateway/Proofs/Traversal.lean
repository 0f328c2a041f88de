import LintGateway.Schema.Checked
import Mathlib.Data.List.Forall2
import Mathlib.Data.List.Induction

/-!
# Going through lists

Reports, rules and activations come as lists that are gone through item by item, each item being
read, translated or refused. A list is accepted as a whole when each of its items is; where a
refusal ends the walk, it is that of the first item that is refused.
-/

set_option autoImplicit false

namespace LintGateway

variable {α β ε : Type}

/-- Two steps in a row succeed when both do. -/
theorem bind_eq_ok_iff (x : Except ε α) (next : α → Except ε β) (b : β) :
    (x >>= next) = .ok b ↔ ∃ a, x = .ok a ∧ next a = .ok b := by
  cases x <;> simp [bind, Except.bind]

/-- Two steps in a row fail when the first does, or else the second. -/
theorem bind_eq_error_iff (x : Except ε α) (next : α → Except ε β) (e : ε) :
    (x >>= next) = .error e ↔ x = .error e ∨ ∃ a, x = .ok a ∧ next a = .error e := by
  cases x <;> simp [bind, Except.bind]

/-- A mapped result is a success exactly when the result is. -/
theorem map_eq_ok_iff (f : α → β) (x : Except ε α) (b : β) :
    x.map f = .ok b ↔ ∃ a, x = .ok a ∧ f a = b := by
  cases x <;> simp [Except.map]

/-- A mapped result has the error of the result. -/
theorem map_eq_error_iff (f : α → β) (x : Except ε α) (e : ε) :
    x.map f = .error e ↔ x = .error e := by
  cases x <;> simp [Except.map]

/-- A walk that may fail succeeds exactly when each step does, and gives the results in order. -/
theorem mapM_eq_ok_iff (f : α → Except ε β) (as : List α) (bs : List β) :
    as.mapM f = .ok bs ↔ List.Forall₂ (fun a b => f a = .ok b) as bs := by
  induction as generalizing bs with
  | nil =>
    rw [List.mapM_nil, List.forall₂_nil_left_iff]
    simp only [pure, Except.pure, Except.ok.injEq]
    exact eq_comm
  | cons a as ih =>
    rw [List.mapM_cons, bind_eq_ok_iff, List.forall₂_cons_left_iff]
    refine exists_congr fun b => ?_
    rw [bind_eq_ok_iff]
    constructor
    · rintro ⟨ha, rest, hrest, hbs⟩
      exact ⟨rest, ha, (ih rest).mp hrest, (Except.ok.inj hbs).symm⟩
    · rintro ⟨rest, ha, hrest, rfl⟩
      exact ⟨ha, rest, (ih rest).mpr hrest, rfl⟩

/-- Walks that take the same steps have the same result. -/
theorem mapM_congr {f g : α → Except ε β} {as : List α} (h : ∀ a ∈ as, f a = g a) :
    as.mapM f = as.mapM g := by
  induction as with
  | nil => rfl
  | cons a as ih =>
    have hrest := ih fun x hx => h x (List.mem_cons_of_mem a hx)
    rw [List.mapM_cons, List.mapM_cons, h a List.mem_cons_self, hrest]

/-- A walk that may fail ends with the error of the first step that fails. -/
theorem mapM_eq_error_iff (f : α → Except ε β) (as : List α) (e : ε) :
    as.mapM f = .error e ↔
      ∃ before a after, as = before ++ a :: after ∧ (∀ x ∈ before, ∃ b, f x = .ok b) ∧
        f a = .error e := by
  induction as with
  | nil => simp [pure, Except.pure]
  | cons x as ih =>
    have hrest : ∀ b : β, (as.mapM f >>= fun bs => pure (b :: bs)) = Except.error e ↔
        as.mapM f = .error e := by
      intro b
      rw [bind_eq_error_iff]
      simp [pure, Except.pure]
    rw [List.mapM_cons, bind_eq_error_iff]
    simp only [hrest, ih]
    constructor
    · rintro (hx | ⟨b, hb, before, a, after, rfl, hbefore, ha⟩)
      · exact ⟨[], x, as, rfl, by simp, hx⟩
      · refine ⟨x :: before, a, after, rfl, ?_, ha⟩
        intro y hy
        rcases List.mem_cons.mp hy with rfl | hy
        · exact ⟨b, hb⟩
        · exact hbefore y hy
    · rintro ⟨before, a, after, heq, hbefore, ha⟩
      cases before with
      | nil =>
        obtain ⟨rfl, rfl⟩ := List.cons.inj heq
        exact Or.inl ha
      | cons y before =>
        obtain ⟨rfl, rfl⟩ := List.cons.inj heq
        obtain ⟨b, hb⟩ := hbefore x (by simp)
        exact Or.inr ⟨b, hb, before, a, after, rfl, fun z hz => hbefore z (by simp [hz]), ha⟩

/-- Where no two items have one name, the item found by a name is the one that has it. -/
theorem find?_eq_some_iff_of_nodup [DecidableEq β] {name : α → β} {as : List α}
    (h : (as.map name).Nodup) {n : β} {a : α} :
    as.find? (fun x => name x = n) = some a ↔ a ∈ as ∧ name a = n := by
  induction as with
  | nil => simp
  | cons x as ih =>
    rw [List.map_cons, List.nodup_cons] at h
    rw [List.find?_cons, List.mem_cons]
    by_cases hx : name x = n
    · simp only [hx, decide_true, Option.some.injEq]
      constructor
      · rintro rfl
        exact ⟨Or.inl rfl, hx⟩
      · rintro ⟨rfl | ha, han⟩
        · rfl
        · exact absurd (List.mem_map.mpr ⟨a, ha, han.trans hx.symm⟩) h.1
    · simp only [hx, decide_false, ih h.2]
      constructor
      · rintro ⟨ha, han⟩
        exact ⟨Or.inr ha, han⟩
      · rintro ⟨rfl | ha, han⟩
        · exact absurd han hx
        · exact ⟨ha, han⟩

/-- Two searches through one list find the same when each of them accepts what the other finds. -/
theorem find?_eq_of_hits {p q : α → Bool} {as : List α}
    (hp : ∀ a, as.find? p = some a → q a = true) (hq : ∀ a, as.find? q = some a → p a = true) :
    as.find? p = as.find? q := by
  induction as with
  | nil => rfl
  | cons a as ih =>
    cases hpa : p a with
    | true =>
      have hqa : q a = true := hp a (List.find?_cons_of_pos hpa)
      rw [List.find?_cons_of_pos hpa, List.find?_cons_of_pos hqa]
    | false =>
      have hqa : q a = false := by
        rw [Bool.eq_false_iff]
        intro hqa
        exact Bool.eq_false_iff.mp hpa (hq a (List.find?_cons_of_pos hqa))
      simp only [List.find?_cons, hpa, hqa] at hp hq ⊢
      exact ih hp hq

/-- In a list in which the earlier is related to the later, whatever has a property is the last with
it, or related to the last. -/
theorem eq_or_related_of_find?_reverse {r : α → α → Prop} {p : α → Bool} {as : List α}
    (h : as.Pairwise r) {last : α} (hlast : as.reverse.find? p = some last) {a : α} (ha : a ∈ as)
    (hp : p a = true) : a = last ∨ r a last := by
  induction as using List.reverseRecOn with
  | nil => cases ha
  | append_singleton as z ih =>
    obtain ⟨has, -, hz⟩ := List.pairwise_append.mp h
    rw [List.reverse_append, List.reverse_singleton, List.singleton_append, List.find?_cons]
      at hlast
    rw [List.mem_append, List.mem_singleton] at ha
    by_cases hpz : p z = true
    · simp only [hpz, Option.some.injEq] at hlast
      rcases ha with ha | rfl
      · exact Or.inr (hlast ▸ hz a ha z (List.mem_singleton_self z))
      · exact Or.inl hlast
    · simp only [hpz] at hlast
      rcases ha with ha | rfl
      · exact ih has hlast ha
      · exact absurd hp hpz

/-- Items of which each stands for something stand for a list. -/
theorem exists_forall₂_iff (r : α → β → Prop) (as : List α) :
    (∃ bs, List.Forall₂ r as bs) ↔ ∀ a ∈ as, ∃ b, r a b := by
  induction as with
  | nil => simp
  | cons a as ih =>
    constructor
    · rintro ⟨_, h⟩
      cases h with
      | cons ha hrest =>
        intro x hx
        rcases List.mem_cons.mp hx with rfl | hx
        · exact ⟨_, ha⟩
        · exact ih.mp ⟨_, hrest⟩ x hx
    · intro h
      obtain ⟨b, hb⟩ := h a List.mem_cons_self
      obtain ⟨bs, hbs⟩ := ih.mpr fun x hx => h x (List.mem_cons_of_mem a hx)
      exact ⟨b :: bs, .cons hb hbs⟩

/-- Lists related one by one are related by what follows for their elements. -/
theorem forall₂_imp_of_mem {r s : α → β → Prop} {as : List α} {bs : List β}
    (h : List.Forall₂ r as bs) (himp : ∀ a ∈ as, ∀ b ∈ bs, r a b → s a b) :
    List.Forall₂ s as bs := by
  induction h with
  | nil => exact .nil
  | cons hfirst _ ih =>
    refine .cons (himp _ List.mem_cons_self _ List.mem_cons_self hfirst) (ih ?_)
    exact fun a ha b hb => himp a (List.mem_cons_of_mem _ ha) b (List.mem_cons_of_mem _ hb)

/-- An element of the first of two lists related one by one has one in the second. -/
theorem exists_mem_of_forall₂ {r : α → β → Prop} {as : List α} {bs : List β}
    (h : List.Forall₂ r as bs) {a : α} (ha : a ∈ as) : ∃ b ∈ bs, r a b := by
  induction h with
  | nil => cases ha
  | cons hfirst _ ih =>
    rcases List.mem_cons.mp ha with rfl | ha
    · exact ⟨_, List.mem_cons_self, hfirst⟩
    · obtain ⟨b, hb, hr⟩ := ih ha
      exact ⟨b, List.mem_cons_of_mem _ hb, hr⟩

/-- Items that are each related to what is made of them are so as lists. -/
theorem forall₂_map_self {r : α → β → Prop} {f : α → β} {as : List α} (h : ∀ a ∈ as, r a (f a)) :
    List.Forall₂ r as (as.map f) :=
  List.forall₂_map_right_iff.mpr (List.forall₂_same.mpr h)

/-- What holds on the right of every pair holds of every item on the right. -/
theorem forall_mem_of_forall₂ {p : β → Prop} {as : List α} {bs : List β}
    (h : List.Forall₂ (fun _ b => p b) as bs) : ∀ b ∈ bs, p b := by
  intro b hb
  obtain ⟨_, -, hp⟩ := exists_mem_of_forall₂ h.flip hb
  exact hp

/-- A walk in which some step fails, and no step fails in another way, ends so. -/
theorem mapM_eq_error_of_mem {f : α → Except ε β} {as : List α} {a : α} {e : ε} (hmem : a ∈ as)
    (hfails : ∀ b, f a ≠ .ok b) (honly : ∀ x why, f x = .error why → why = e) :
    as.mapM f = .error e := by
  cases hwalk : as.mapM f with
  | error why =>
    obtain ⟨-, x, -, -, -, hx⟩ := (mapM_eq_error_iff f as why).mp hwalk
    rw [honly x why hx]
  | ok bs =>
    obtain ⟨b, -, hb⟩ := exists_mem_of_forall₂ ((mapM_eq_ok_iff f as bs).mp hwalk) hmem
    exact absurd hb (hfails b)

/-- Lists related one by one to a list in turn are related by what follows from both. -/
theorem forall₂_comp {γ : Type} {r : α → β → Prop} {s : β → γ → Prop} {q : α → γ → Prop}
    {as : List α} {bs : List β} {cs : List γ} (h : List.Forall₂ r as bs)
    (h' : List.Forall₂ s bs cs) (hcomp : ∀ a ∈ as, ∀ b c, r a b → s b c → q a c) :
    List.Forall₂ q as cs := by
  induction h generalizing cs with
  | nil =>
    cases h'
    exact .nil
  | cons hfirst _ ih =>
    cases h' with
    | cons hfirst' hrest' =>
      refine .cons (hcomp _ List.mem_cons_self _ _ hfirst hfirst') (ih hrest' ?_)
      exact fun a ha => hcomp a (List.mem_cons_of_mem _ ha)

/-- Items that are related in two steps are so through a list in between. -/
theorem forall₂_exists_iff {γ : Type} {r : α → β → Prop} {s : β → γ → Prop} {as : List α}
    {cs : List γ} :
    List.Forall₂ (fun a c => ∃ b, r a b ∧ s b c) as cs ↔
      ∃ bs, List.Forall₂ r as bs ∧ List.Forall₂ s bs cs := by
  constructor
  · intro h
    induction h with
    | nil => exact ⟨[], .nil, .nil⟩
    | cons hfirst _ ih =>
      obtain ⟨b, hr, hs⟩ := hfirst
      obtain ⟨bs, hrs, hss⟩ := ih
      exact ⟨b :: bs, .cons hr hrs, .cons hs hss⟩
  · rintro ⟨bs, hrs, hss⟩
    exact forall₂_comp hrs hss fun _ _ b _ hr hs => ⟨b, hr, hs⟩

/-- Lists that stand for each other are related pairwise in the same way. -/
theorem pairwise_iff_of_forall₂ {stands : α → β → Prop} {r : α → α → Prop} {s : β → β → Prop}
    {as : List α} {bs : List β} (h : List.Forall₂ stands as bs)
    (hsame : ∀ a x b y, stands a x → stands b y → (r a b ↔ s x y)) :
    as.Pairwise r ↔ bs.Pairwise s := by
  induction h with
  | nil => exact ⟨fun _ => .nil, fun _ => .nil⟩
  | @cons a x as bs hfirst hrest ih =>
    rw [List.pairwise_cons, List.pairwise_cons, ih]
    refine and_congr_left fun _ => ⟨fun hr y hy => ?_, fun hs b hb => ?_⟩
    · obtain ⟨b, hb, hstands⟩ := exists_mem_of_forall₂ hrest.flip hy
      exact (hsame a x b y hfirst hstands).mp (hr b hb)
    · obtain ⟨y, hy, hstands⟩ := exists_mem_of_forall₂ hrest hb
      exact (hsame a x b y hfirst hstands).mpr (hs y hy)

/-- In lists that stand for each other, what is found first in one stands for what is found first in
the other. -/
theorem find?_of_forall₂ {stands : α → β → Prop} {p : α → Bool} {q : β → Bool} {as : List α}
    {bs : List β} (h : List.Forall₂ stands as bs) (hsame : ∀ a x, stands a x → p a = q x) {x : β}
    (hx : bs.find? q = some x) : ∃ a, as.find? p = some a ∧ stands a x := by
  induction h with
  | nil => cases hx
  | @cons a y as bs hfirst _ ih =>
    rw [List.find?_cons] at hx ⊢
    rw [hsame a y hfirst]
    cases hq : q y with
    | true =>
      rw [hq] at hx
      obtain rfl := Option.some.inj hx
      exact ⟨a, rfl, hfirst⟩
    | false =>
      rw [hq] at hx
      exact ih hx

/-- Members related by their names have the same names. -/
theorem names_eq_of_forall₂ {ms : Members α} {ns : Members β}
    (h : List.Forall₂ (fun m n => m.1 = n.1) ms ns) : ms.names = ns.names := by
  induction h with
  | nil => rfl
  | cons hfirst _ ih => exact congrArg₂ List.cons hfirst ih

/-- Members with the same names are related one by one when those of one name are. -/
theorem forall₂_of_names_eq {r : String × α → String × β → Prop} {ms : Members α} {ns : Members β}
    (h : ms.names = ns.names) (hsame : ∀ m ∈ ms, ∀ n ∈ ns, m.1 = n.1 → r m n) :
    List.Forall₂ r ms ns := by
  induction ms generalizing ns with
  | nil =>
    rw [List.map_eq_nil_iff.mp h.symm]
    exact .nil
  | cons m ms ih =>
    cases ns with
    | nil => cases h
    | cons n ns =>
      obtain ⟨hname, hnames⟩ := List.cons.inj h
      refine .cons (hsame m List.mem_cons_self n List.mem_cons_self hname) (ih hnames ?_)
      intro a ha b hb
      exact hsame a (List.mem_cons_of_mem _ ha) b (List.mem_cons_of_mem _ hb)

namespace Schema

/-- A sequence is read exactly when each of its items is, wherever the count of positions starts. -/
theorem Checked.eachFrom_eq_sound_iff (read : Value → Checked α) (index : Nat) (vs : List Value)
    (as : List α) :
    Checked.eachFrom read index vs = .sound as ↔
      List.Forall₂ (fun v a => read v = .sound a) vs as := by
  induction vs generalizing index as with
  | nil => cases as <;> simp [Checked.eachFrom]
  | cons v vs ih =>
    simp only [Checked.eachFrom, Checked.seq_eq_sound_iff, Checked.map_eq_sound_iff,
      Checked.under_eq_sound_iff, ih]
    constructor
    · rintro ⟨_, rest, ⟨a, ha, rfl⟩, hrest, rfl⟩
      exact .cons ha hrest
    · intro h
      cases h with
      | cons ha hrest => exact ⟨_, _, ⟨_, ha, rfl⟩, hrest, rfl⟩

/-- A sequence is read exactly when each of its items is. -/
theorem Checked.each_eq_sound_iff (read : Value → Checked α) (vs : List Value) (as : List α) :
    Checked.each read vs = .sound as ↔ List.Forall₂ (fun v a => read v = .sound a) vs as :=
  Checked.eachFrom_eq_sound_iff read 0 vs as

end Schema

end LintGateway
