import LintGateway.FileTree.Basic
import Mathlib.Data.List.Perm.Subperm

/-!
# The files of a tree

The count of the files below a node bounds every list of different places of files: each of them is
in `filePlaces`, which has one entry for each file that is counted.
-/

set_option autoImplicit false

namespace LintGateway.Node

mutual

/-- The places of the files from a node on down. -/
def filePlaces : Node → List (List String)
  | directory entries => filePlacesBelow entries
  | file _ _ => [[]]
  | link _ => []

/-- The places of the files below the entries of a directory. -/
def filePlacesBelow : List (String × Node) → List (List String)
  | [] => []
  | (name, node) :: entries => (filePlaces node).map (name :: ·) ++ filePlacesBelow entries

end

mutual

/-- There are as many places of files in a node as files. -/
theorem length_filePlaces : ∀ node : Node, node.filePlaces.length = node.count isFile
  | directory entries => by
    have hbelow := length_filePlacesBelow entries
    simp only [filePlaces, count, isFile, Bool.false_eq_true, if_false, Nat.zero_add]
    exact hbelow
  | file content mode => by simp [filePlaces, count, isFile]
  | link target => by simp [filePlaces, count, isFile]

/-- There are as many places of files below entries as files. -/
theorem length_filePlacesBelow : ∀ entries : List (String × Node),
    (filePlacesBelow entries).length = countBelow isFile entries
  | [] => rfl
  | (name, node) :: entries => by
    have hnode := length_filePlaces node
    have hentries := length_filePlacesBelow entries
    simp only [filePlacesBelow, countBelow, List.length_append, List.length_map]
    omega

end

/-- A file of an entry has its place below the name of the entry. -/
theorem mem_filePlacesBelow {entries : List (String × Node)} {name : String} {node : Node}
    {names : List String} (hmem : (name, node) ∈ entries) (hnames : names ∈ node.filePlaces) :
    name :: names ∈ filePlacesBelow entries := by
  induction entries with
  | nil => cases hmem
  | cons entry entries ih =>
    obtain ⟨first, other⟩ := entry
    rw [filePlacesBelow, List.mem_append]
    rcases List.mem_cons.mp hmem with heq | hrest
    · obtain ⟨rfl, rfl⟩ := Prod.mk.inj heq
      exact Or.inl (List.mem_map.mpr ⟨names, hnames, rfl⟩)
    · exact Or.inr (ih hrest)

/-- A place that leads to a file is one of the places of files. -/
theorem mem_filePlaces {node : Node} {names : List String} {content : ByteArray} {mode : Nat}
    (h : node.get? names = some (.file content mode)) : names ∈ node.filePlaces := by
  induction names generalizing node with
  | nil =>
    have hnode : node = .file content mode := by simpa [get?] using h
    rw [hnode]
    exact List.mem_singleton_self []
  | cons name names ih =>
    cases node with
    | directory entries =>
      obtain ⟨child, hchild, hget⟩ := Option.bind_eq_some_iff.mp h
      have hmem : (name, child) ∈ entries := Members.mem_of_get? hchild
      exact mem_filePlacesBelow hmem (ih hget)
    | file _ _ => cases h
    | link _ => cases h

/-- There are no more different places of files than files. -/
theorem length_le_count_of_nodup {node : Node} {places : List (List String)}
    (hnodup : places.Nodup)
    (h : ∀ names ∈ places, ∃ content mode, node.get? names = some (.file content mode)) :
    places.length ≤ node.count isFile := by
  have hsub : places ⊆ node.filePlaces := by
    intro names hnames
    obtain ⟨content, mode, hget⟩ := h names hnames
    exact mem_filePlaces hget
  rw [← length_filePlaces]
  exact (List.subperm_of_subset hnodup hsub).length_le

end LintGateway.Node
