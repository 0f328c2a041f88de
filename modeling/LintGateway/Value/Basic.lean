import LintGateway.Value.Moment

/-!
# Values of options, settings and reports

Rule options, settings tables and report members hold data of any shape, so one type carries them
all. A record lists its members in the order in which they were given, which every printed form
keeps. A sequence read from a document is a `list`; a `tuple` is a sequence that has been frozen and
is part of a stored option.

An undefined float is not equal to itself, but where it stands in two places as one object it is the
same in both. Such an object has a number: `float x (some i)` is the object `i` wherever it stands,
and `float x` is an object that stands nowhere else, as everything does that has just been read.

The operations on members (`lookup`, `put`, `erase`) work for members of any type and are used
wherever something is kept in order of insertion.
-/

set_option autoImplicit false

namespace LintGateway

/-- Data of any shape. -/
inductive Value where
  | null
  | bool (b : Bool)
  | int (n : Int)
  | float (x : Float) (object : Option Nat := none)
  | text (s : String)
  | moment (m : Moment)
  | list (items : List Value)
  | tuple (items : List Value)
  | record (members : List (String × Value))
deriving Inhabited

/-- Named members in the order of their first insertion. -/
abbrev Members (α : Type) := List (String × α)

namespace Members

variable {α : Type}

/-- The names of the members, in order. -/
def names (t : Members α) : List String := t.map Prod.fst

/-- The member of a name. -/
def get? (t : Members α) (name : String) : Option α := t.lookup name

/-- Whether there is a member of a name. -/
def has (t : Members α) (name : String) : Bool := (t.get? name).isSome

/-- Sets a member: in its place when the name is known, at the end when it is new. -/
def put (t : Members α) (name : String) (a : α) : Members α :=
  match t with
  | [] => [(name, a)]
  | (n, b) :: rest => if n = name then (n, a) :: rest else (n, b) :: Members.put rest name a

/-- The members other than the one of a name. -/
def erase (t : Members α) (name : String) : Members α := t.filter fun m => m.1 ≠ name

/-- Members from a list of names with values: a repeated name keeps its first place and its last
value. -/
def ofList (entries : List (String × α)) : Members α :=
  entries.foldl (fun t e => t.put e.1 e.2) []

/-- In the empty table nothing is found. -/
@[simp] theorem get?_nil (name : String) : get? ([] : Members α) name = none := rfl

/-- The first member of a name is found. -/
theorem get?_cons (n name : String) (a : α) (t : Members α) :
    get? ((n, a) :: t) name = if name = n then some a else get? t name := by
  unfold get?
  rw [List.lookup_cons]
  by_cases h : name = n
  · simp [h]
  · have hb : (name == n) = false := by simpa using h
    simp [hb, h]

/-- A member that has just been set is found under its name, and every other one as before. -/
theorem get?_put (t : Members α) (name other : String) (a : α) :
    (t.put name a).get? other = if other = name then some a else t.get? other := by
  induction t with
  | nil => simp [put, get?_cons]
  | cons m t ih =>
    obtain ⟨n, b⟩ := m
    by_cases hn : n = name
    · subst hn
      by_cases ho : other = n <;> simp [put, get?_cons, ho]
    · by_cases ho : other = n
      · subst ho; simp [put, get?_cons, hn]
      · simp [put, get?_cons, hn, ho, ih]

/-- What is found under a name is a member. -/
theorem mem_of_get? {t : Members α} {name : String} {a : α} (h : t.get? name = some a) :
    (name, a) ∈ t := by
  induction t with
  | nil => cases h
  | cons m t ih =>
    obtain ⟨n, b⟩ := m
    rw [get?_cons] at h
    by_cases hn : name = n
    · rw [if_pos hn] at h
      rw [hn, Option.some.inj h]
      exact List.mem_cons_self
    · rw [if_neg hn] at h
      exact List.mem_cons_of_mem _ (ih h)

/-- A name is not found exactly when no member has it. -/
theorem get?_eq_none_iff {t : Members α} {name : String} :
    t.get? name = none ↔ name ∉ t.names := by
  unfold get? names
  rw [List.lookup_eq_none_iff]
  simp only [List.mem_map, bne_iff_ne, ne_eq, not_exists, not_and]
  constructor
  · intro h m hm heq
    exact h m hm heq.symm
  · intro h m hm heq
    exact h m hm heq.symm

/-- Where no name is repeated, each member is found under its name. -/
theorem get?_eq_some_iff {t : Members α} (h : t.names.Nodup) (name : String) (a : α) :
    t.get? name = some a ↔ (name, a) ∈ t := by
  induction t with
  | nil => simp
  | cons m t ih =>
    obtain ⟨n, b⟩ := m
    simp only [names, List.map_cons, List.nodup_cons] at h
    have ih := ih h.2
    rw [get?_cons]
    by_cases hn : name = n
    · subst hn
      have hnot : (name, a) ∉ t := fun hm => h.1 (List.mem_map.mpr ⟨(name, a), hm, rfl⟩)
      simp [hnot, eq_comm]
    · simp [hn, ih]

/-- Setting a member adds its name at the end exactly when it is new. -/
theorem names_put (t : Members α) (name : String) (a : α) :
    (t.put name a).names = if name ∈ t.names then t.names else t.names ++ [name] := by
  induction t with
  | nil => simp [put, names]
  | cons m t ih =>
    obtain ⟨n, b⟩ := m
    by_cases hn : n = name
    · subst hn; simp [put, names]
    · simp only [names] at ih
      by_cases hm : name ∈ t.map Prod.fst <;>
        simp_all [put, names, Ne.symm hn]

/-- Setting a member repeats no name. -/
theorem nodup_names_put {t : Members α} (h : t.names.Nodup) (name : String) (a : α) :
    (t.put name a).names.Nodup := by
  rw [names_put]
  split
  · exact h
  · rename_i hnew
    rw [List.nodup_append]
    refine ⟨h, by simp, ?_⟩
    intro n hn m hm
    simp only [List.mem_singleton] at hm
    rintro rfl
    exact hnew (hm ▸ hn)

/-- Setting a member that is new puts it at the end. -/
theorem put_of_not_mem {t : Members α} {name : String} (h : name ∉ t.names) (a : α) :
    t.put name a = t ++ [(name, a)] := by
  induction t with
  | nil => rfl
  | cons m t ih =>
    obtain ⟨n, b⟩ := m
    simp only [names, List.map_cons, List.mem_cons, not_or] at h
    simp [put, Ne.symm h.1, ih h.2]

/-- Entries without repeated names are members as they are. -/
theorem ofList_eq_self {entries : Members α} (h : entries.names.Nodup) :
    ofList entries = entries := by
  suffices hgo : ∀ t : Members α, (t.names ++ entries.names).Nodup →
      entries.foldl (fun t e => t.put e.1 e.2) t = t ++ entries by
    simpa [ofList] using hgo [] (by simpa [names] using h)
  clear h
  induction entries with
  | nil => simp
  | cons e es ih =>
    intro t ht
    have hnew : e.1 ∉ t.names := by
      intro hm
      rw [List.nodup_append] at ht
      exact ht.2.2 e.1 hm e.1 (by simp [names]) rfl
    rw [List.foldl_cons, put_of_not_mem hnew e.2, ih]
    · simp
    · simpa [names] using ht

end Members

namespace Value

/-- A settings table, a rule option object or a report entry. -/
abbrev Table := Members Value

end Value

end LintGateway
