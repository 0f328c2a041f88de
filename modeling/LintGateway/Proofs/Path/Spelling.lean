import LintGateway.Proofs.Path

/-!
# How a path is spelled

The text of a path may hold more than the path: slashes in a row, dots between slashes, slashes at
the end. `Spells` says by the form of a text which names stand in it and `StartsAt` where it starts,
and a path is read from a text just when the text denotes it in this sense (`denotes_iff`). Two texts
denote one path when they start at one place and spell the same names.
-/

set_option autoImplicit false

namespace LintGateway.Path

/-- What can stand on a path as a name. -/
def IsName (name : String) : Prop := name ≠ "" ∧ name ≠ "." ∧ '/' ∉ name.toList

/-- The characters of a text, or of what stands behind a slash in it, with the names that they
spell: slashes and dots between slashes are filler. -/
inductive Spells : List Char → List String → Prop
  | nothing : Spells [] []
  | slash {cs : List Char} {names : List String} (h : Spells cs names) : Spells ('/' :: cs) names
  | lastDot : Spells ['.'] []
  | dot {cs : List Char} {names : List String} (h : Spells cs names) :
      Spells ('.' :: '/' :: cs) names
  | lastName {name : String} (hname : IsName name) : Spells name.toList [name]
  | name {name : String} {cs : List Char} {names : List String} (hname : IsName name)
      (h : Spells cs names) : Spells (name.toList ++ '/' :: cs) (name :: names)

/-- Where a text starts: two slashes in front are a root of their own, one slash and three or more
are the root. -/
inductive StartsAt : List Char → Anchor → Prop
  | here {cs : List Char} (h : cs.head? ≠ some '/') : StartsAt cs .here
  | root {cs : List Char} (h : cs.head? ≠ some '/') : StartsAt ('/' :: cs) .root
  | twoSlashRoot {cs : List Char} (h : cs.head? ≠ some '/') :
      StartsAt ('/' :: '/' :: cs) .twoSlashRoot
  | manySlashes (cs : List Char) : StartsAt ('/' :: '/' :: '/' :: cs) .root

/-- A text denotes the path from where it starts through the names that it spells. -/
structure Denotes (s : String) (anchor : Anchor) (names : List String) : Prop where
  starts : StartsAt s.toList anchor
  spells : Spells s.toList names

/-- Two texts denote the same path. -/
def SamePath (s t : String) : Prop :=
  ∃ anchor names, Denotes s anchor names ∧ Denotes t anchor names

/-- The text without filler for the path that `s` denotes. -/
def IsNormalText (s normal : String) : Prop :=
  ∃ anchor names, Denotes s anchor names ∧ normal = anchorText anchor ++ "/".intercalate names

/-! ## The names in a text -/

/-- The names among the pieces of a text between slashes. -/
def namesIn (cs : List Char) : List String :=
  ((Text.splitChars '/' cs).map String.ofList).filter fun segment =>
    segment ≠ "" && segment ≠ "."

/-- A slash in front adds no name. -/
theorem namesIn_slash (cs : List Char) : namesIn ('/' :: cs) = namesIn cs := by
  simp [namesIn]

/-- A piece without a slash is a name, unless it is empty or a dot. -/
theorem namesIn_piece {piece : List Char} (h : '/' ∉ piece) :
    namesIn piece = [String.ofList piece].filter fun segment => segment ≠ "" && segment ≠ "." := by
  simp [namesIn, Text.splitChars_of_not_mem h]

/-- The names of a piece before a slash come before those of the rest. -/
theorem namesIn_append {piece : List Char} (h : '/' ∉ piece) (cs : List Char) :
    namesIn (piece ++ '/' :: cs) = namesIn piece ++ namesIn cs := by
  rw [namesIn_piece h]
  unfold namesIn
  rw [Text.splitChars_append_mark h, List.map_cons, ← List.filter_append, List.singleton_append]

/-- A name is its only name. -/
theorem namesIn_name {name : String} (h : IsName name) : namesIn name.toList = [name] := by
  rw [namesIn_piece h.2.2, String.ofList_toList]
  simp [h.1, h.2.1]

/-- The names in a text are those that it spells. -/
theorem namesIn_of_spells {cs : List Char} {names : List String} (h : Spells cs names) :
    namesIn cs = names := by
  induction h with
  | nothing => rfl
  | slash _ ih => rw [namesIn_slash, ih]
  | lastDot => rfl
  | @dot cs names _ ih =>
    have hdot : namesIn ['.'] = [] := by decide
    have hslash : '/' ∉ ['.'] := by decide
    have happend := namesIn_append hslash cs
    rwa [hdot, ih] at happend
  | lastName hname => exact namesIn_name hname
  | name hname _ ih => rw [namesIn_append hname.2.2, namesIn_name hname, ih, List.singleton_append]

/-- Between two slashes there is filler or a name. -/
theorem filler_or_name {piece : List Char} (h : '/' ∉ piece) :
    piece = [] ∨ piece = ['.'] ∨ ∃ name, IsName name ∧ name.toList = piece := by
  by_cases hempty : piece = []
  · exact Or.inl hempty
  · by_cases hdot : piece = ['.']
    · exact Or.inr (Or.inl hdot)
    · refine Or.inr (Or.inr ⟨String.ofList piece, ⟨?_, ?_, ?_⟩, String.toList_ofList⟩)
      · simpa using hempty
      · intro heq
        apply hdot
        simpa using congrArg String.toList heq
      · rwa [String.toList_ofList]

/-- Every text spells some names: it is taken apart at its first slash. -/
theorem exists_spells (cs : List Char) : ∃ names, Spells cs names := by
  induction hlength : cs.length using Nat.strongRecOn generalizing cs with
  | ind length ih =>
    by_cases hmem : '/' ∈ cs
    · obtain ⟨piece, rest, rfl, hslash⟩ := List.eq_append_cons_of_mem hmem
      have hshorter : rest.length < length := by
        rw [← hlength, List.length_append, List.length_cons]
        omega
      obtain ⟨names, hnames⟩ := ih _ hshorter rest rfl
      obtain rfl | rfl | ⟨name, hname, rfl⟩ := filler_or_name hslash
      · exact ⟨names, .slash hnames⟩
      · exact ⟨names, .dot hnames⟩
      · exact ⟨name :: names, .name hname hnames⟩
    · obtain rfl | rfl | ⟨name, hname, rfl⟩ := filler_or_name hmem
      · exact ⟨[], .nothing⟩
      · exact ⟨[], .lastDot⟩
      · exact ⟨[name], .lastName hname⟩

/-- A text spells names exactly when they are the names in it. -/
theorem spells_iff {cs : List Char} {names : List String} : Spells cs names ↔ namesIn cs = names := by
  constructor
  · exact namesIn_of_spells
  · rintro rfl
    obtain ⟨names, hnames⟩ := exists_spells cs
    rwa [namesIn_of_spells hnames]

/-! ## Where a text starts -/

/-- A text starts at the anchor that its slashes stand for. -/
theorem startsAt_iff {cs : List Char} {anchor : Anchor} :
    StartsAt cs anchor ↔ anchorOfSlashes (cs.takeWhile (· = '/')).length = anchor := by
  have hnone : ∀ {cs : List Char}, cs.head? ≠ some '/' → cs.takeWhile (· = '/') = [] := by
    intro cs h
    simpa using takeWhile_slashes 0 h
  constructor
  · intro h
    cases h with
    | here h => simp [hnone h, anchorOfSlashes]
    | root h => simp [hnone h, anchorOfSlashes]
    | twoSlashRoot h => simp [hnone h, anchorOfSlashes]
    | manySlashes cs => simp [anchorOfSlashes]
  · rintro rfl
    -- how many slashes there are is looked at one by one
    have hsplit : ∀ cs : List Char, cs.head? ≠ some '/' ∨ ∃ rest, cs = '/' :: rest := by
      intro cs
      cases cs with
      | nil => simp
      | cons c cs => by_cases hc : c = '/' <;> simp [hc]
    obtain h | ⟨cs, rfl⟩ := hsplit cs
    · simpa [hnone h, anchorOfSlashes] using StartsAt.here h
    · obtain h | ⟨cs, rfl⟩ := hsplit cs
      · simpa [hnone h, anchorOfSlashes] using StartsAt.root h
      · obtain h | ⟨cs, rfl⟩ := hsplit cs
        · simpa [hnone h, anchorOfSlashes] using StartsAt.twoSlashRoot h
        · simpa [anchorOfSlashes] using StartsAt.manySlashes cs

/-- A text denotes the path that is read from it, and no other one. -/
theorem denotes_iff {s : String} {anchor : Anchor} {names : List String} :
    Denotes s anchor names ↔ ofText s = ⟨anchor, names⟩ := by
  have hread : ofText s = ⟨anchor, names⟩ ↔
      anchorOfSlashes (s.toList.takeWhile (· = '/')).length = anchor ∧ namesIn s.toList = names := by
    unfold ofText Text.split namesIn
    rw [Path.mk.injEq]
  rw [hread, ← startsAt_iff, ← spells_iff]
  exact ⟨fun h => ⟨h.starts, h.spells⟩, fun h => ⟨h.1, h.2⟩⟩

/-- Texts are one path exactly when the same path is made of them. -/
theorem samePath_iff {s t : String} : SamePath s t ↔ ofText s = ofText t := by
  unfold SamePath
  simp only [denotes_iff]
  constructor
  · rintro ⟨anchor, names, hs, ht⟩
    rw [hs, ht]
  · intro h
    exact ⟨_, _, h, rfl⟩

/-- The text of an absolute path is its anchor and its segments with slashes between them. -/
theorem toText_of_isAbsolute {p : Path} (h : p.isAbsolute = true) :
    p.toText = anchorText p.anchor ++ "/".intercalate p.segments := by
  obtain ⟨anchor, segments⟩ := p
  cases anchor with
  | here => cases h
  | root | twoSlashRoot => rfl

/-- The text of an absolute path is the one without filler for every text that denotes the path. -/
theorem isNormalText_iff {s normal : String} (h : (ofText s).isAbsolute = true) :
    IsNormalText s normal ↔ normal = (ofText s).toText := by
  unfold IsNormalText
  simp only [denotes_iff, toText_of_isAbsolute h]
  constructor
  · rintro ⟨anchor, names, hs, rfl⟩
    rw [hs]
  · rintro rfl
    exact ⟨_, _, rfl, rfl⟩

end LintGateway.Path
