import LintGateway.FileTree.Listing
import LintGateway.Proofs.Path
import LintGateway.Proofs.Sorting

/-!
# What a listing holds

A tree that a disk can hold is `Proper`. Listing the files below a directory of such a tree gives
just the entries that stand for files and that are come to through directories with accepted names
(`mem_filesBelow_iff`), and gives them in order: in each directory the files by name, and after them
what is below its subdirectories, by the name of the subdirectory (`pairwise_filesBelow`). Both are
proved along the tree, from what the listing of one directory makes of the contributions of its
entries.

A listing starts at the path that another one resolves to, whose names are those of the path itself,
of the current directory and of the targets of links (`isPlain_resolve`).
-/

set_option autoImplicit false

namespace LintGateway

namespace Node

/-- A tree that a disk can hold: the entries of a directory have different names, and names can stand
in a path. -/
inductive Proper : Node → Prop
  | file (content : ByteArray) (mode : Nat) : Proper (.file content mode)
  | link (target : String) : Proper (.link target)
  | directory {entries : List (String × Node)} (hnames : (Members.names entries).Nodup)
      (hplain : ∀ e ∈ entries, e.1 ≠ "" ∧ e.1 ≠ "." ∧ '/' ∉ e.1.toList)
      (h : ∀ e ∈ entries, Proper e.2) : Proper (.directory entries)

variable {node other : Node} {names : List String}

/-- What stands in a proper node is proper. -/
theorem Proper.of_get? (h : node.Proper) (hget : node.get? names = some other) : other.Proper := by
  induction names generalizing node with
  | nil =>
    cases hget
    exact h
  | cons name names ih =>
    cases h with
    | file | link => cases hget
    | directory hnames hplain hentries =>
      obtain ⟨child, hchild, hrest⟩ := Option.bind_eq_some_iff.mp hget
      exact ih (hentries _ (Members.mem_of_get? hchild)) hrest

/-- The names that lead to something in a proper node are plain. -/
theorem Proper.isPlain_of_get? (h : node.Proper) (hget : node.get? names = some other) :
    (Path.mk .root names).IsPlain := by
  induction names generalizing node with
  | nil => exact fun name hname => nomatch hname
  | cons name names ih =>
    cases h with
    | file | link => cases hget
    | directory hnames hplain hentries =>
      obtain ⟨child, hchild, hrest⟩ := Option.bind_eq_some_iff.mp hget
      have hmem := Members.mem_of_get? hchild
      exact List.forall_mem_cons.mpr ⟨hplain _ hmem, ih (hentries _ hmem) hrest⟩

/-- Only a directory has something below it. -/
theorem isDirectory_of_get?_cons {name : String} (h : node.get? (name :: names) = some other) :
    node.isDirectory = true := by
  cases node with
  | directory entries => rfl
  | file | link => cases h

end Node

namespace FileTree

variable {t : FileTree} {enters : String → Bool} {place x : List String} {name : String}
  {node : Node} {places : List (List String)}

/-- A node at a place stands for a file: it is no directory, and no link that leads to one. -/
def StandsForFile (t : FileTree) (place : List String) (node : Node) : Prop :=
  node.isDirectory = false ∧ (node.isLink = true → t.isDirectory ⟨.root, place⟩ = false)

/-! ## One directory -/

/-- What an entry of the directory at `place` contributes. -/
def contribution (t : FileTree) (enters : String → Bool) (place : List String) (name : String) :
    Node → Contribution
  | .file _ _ => .file
  | .link _ => if t.isDirectory ⟨.root, place ++ [name]⟩ then .nothing else .file
  | .directory below =>
    if enters name then .below (filesBelow t enters (place ++ [name]) (.directory below))
    else .nothing

/-- The contributions of entries are those of each of them, under its name. -/
theorem contributions_eq_map (entries : List (String × Node)) :
    contributions t enters place entries =
      entries.map fun e => (e.1, contribution t enters place e.1 e.2) := by
  induction entries with
  | nil => simp only [contributions, List.map_nil]
  | cons e entries ih =>
    obtain ⟨name, node⟩ := e
    rw [List.map_cons, ← ih]
    cases node <;> simp only [contributions, contribution, filesBelow]

/-- An entry contributes a file when it stands for one. -/
theorem contribution_eq_file_iff :
    contribution t enters place name node = .file ↔ StandsForFile t (place ++ [name]) node := by
  unfold contribution StandsForFile
  cases node with
  | file content mode => simp [Node.isDirectory, Node.isLink]
  | link target =>
    by_cases h : t.isDirectory ⟨.root, place ++ [name]⟩
    · simp [Node.isDirectory, Node.isLink, h]
    · simp [Node.isDirectory, Node.isLink, h]
  | directory entries => by_cases h : enters name <;> simp [Node.isDirectory, h]

/-- An entry contributes what is below it when it is a directory that is entered. -/
theorem contribution_eq_below_iff :
    contribution t enters place name node = .below places ↔
      node.isDirectory = true ∧ enters name = true ∧
        filesBelow t enters (place ++ [name]) node = places := by
  unfold contribution
  cases node with
  | file content mode => simp [Node.isDirectory]
  | link target =>
    by_cases h : t.isDirectory ⟨.root, place ++ [name]⟩ <;> simp [Node.isDirectory, h]
  | directory entries => by_cases h : enters name <;> simp [Node.isDirectory, h]

/-- What is arranged are the files of the entries and what the entries have below them. -/
theorem mem_arrange_iff {entries : List (String × Contribution)} :
    x ∈ arrange place entries ↔
      (∃ name, (name, .file) ∈ entries ∧ x = place ++ [name]) ∨
        ∃ name places, (name, .below places) ∈ entries ∧ x ∈ places := by
  unfold arrange
  rw [List.mem_append]
  constructor
  · rintro (hfile | hbelow)
    · obtain ⟨⟨name, what⟩, hmem, heq⟩ := List.mem_filterMap.mp hfile
      cases what with
      | file =>
        cases heq
        exact Or.inl ⟨name, List.mem_mergeSort.mp hmem, rfl⟩
      | below | nothing => cases heq
    · obtain ⟨⟨name, what⟩, hmem, hx⟩ := List.mem_flatMap.mp hbelow
      cases what with
      | below places => exact Or.inr ⟨name, places, List.mem_mergeSort.mp hmem, hx⟩
      | file | nothing => cases hx
  · rintro (⟨name, hmem, rfl⟩ | ⟨name, places, hmem, hx⟩)
    · exact Or.inl (List.mem_filterMap.mpr ⟨_, List.mem_mergeSort.mpr hmem, rfl⟩)
    · exact Or.inr (List.mem_flatMap.mpr ⟨_, List.mem_mergeSort.mpr hmem, hx⟩)

/-- What the listing of a directory holds, by its entries: the place of one that stands for a file,
and what the listing of one that is entered holds. -/
theorem mem_filesBelow_directory {entries : List (String × Node)} :
    x ∈ filesBelow t enters place (.directory entries) ↔
      ∃ name node, (name, node) ∈ entries ∧
        (StandsForFile t (place ++ [name]) node ∧ x = place ++ [name] ∨
          node.isDirectory = true ∧ enters name = true ∧
            x ∈ filesBelow t enters (place ++ [name]) node) := by
  rw [filesBelow, mem_arrange_iff, contributions_eq_map]
  constructor
  · rintro (⟨name, hmem, rfl⟩ | ⟨name, places, hmem, hx⟩)
    · obtain ⟨⟨name, node⟩, hentry, heq⟩ := List.mem_map.mp hmem
      obtain ⟨rfl, hfile⟩ := Prod.mk.inj heq
      exact ⟨name, node, hentry, Or.inl ⟨contribution_eq_file_iff.mp hfile, rfl⟩⟩
    · obtain ⟨⟨name, node⟩, hentry, heq⟩ := List.mem_map.mp hmem
      obtain ⟨rfl, hbelow⟩ := Prod.mk.inj heq
      obtain ⟨hdirectory, henters, rfl⟩ := contribution_eq_below_iff.mp hbelow
      exact ⟨name, node, hentry, Or.inr ⟨hdirectory, henters, hx⟩⟩
  · rintro ⟨name, node, hentry, ⟨hfile, rfl⟩ | ⟨hdirectory, henters, hx⟩⟩
    · have hcontribution : contribution t enters place name node = .file :=
        contribution_eq_file_iff.mpr hfile
      exact Or.inl ⟨name, List.mem_map.mpr ⟨_, hentry, by rw [hcontribution]⟩, rfl⟩
    · have hcontribution : contribution t enters place name node =
          .below (filesBelow t enters (place ++ [name]) node) :=
        contribution_eq_below_iff.mpr ⟨hdirectory, henters, rfl⟩
      exact Or.inr ⟨name, _, List.mem_map.mpr ⟨_, hentry, by rw [hcontribution]⟩, hx⟩

/-! ## The whole tree -/

/-- A place is listed below a directory at `place`: it is that of an entry that stands for a file, and
is come to from the directory through others whose names are accepted. -/
inductive IsListed (t : FileTree) (enters : String → Bool) (place : List String) (top : Node) :
    List String → Prop
  | intro {directories : List String} {name : String} {entry : Node}
      (hentry : top.get? (directories ++ [name]) = some entry)
      (henters : ∀ directory ∈ directories, enters directory = true)
      (hfile : StandsForFile t (place ++ (directories ++ [name])) entry) :
      IsListed t enters place top (place ++ (directories ++ [name]))

/-- Something is listed below directories only. -/
theorem IsListed.isDirectory (h : IsListed t enters place node x) : node.isDirectory = true := by
  obtain ⟨hentry, -, -⟩ := h
  rename_i directories name entry
  cases directories <;> exact Node.isDirectory_of_get?_cons hentry

/-- Below a directory is listed what its entries are and what is listed below them. -/
theorem isListed_directory_iff {entries : List (String × Node)}
    (hnames : (Members.names entries).Nodup) :
    IsListed t enters place (.directory entries) x ↔
      ∃ name node, (name, node) ∈ entries ∧
        (StandsForFile t (place ++ [name]) node ∧ x = place ++ [name] ∨
          enters name = true ∧ IsListed t enters (place ++ [name]) node x) := by
  have hentries : ∀ name node, Members.get? entries name = some node ↔ (name, node) ∈ entries :=
    Members.get?_eq_some_iff hnames
  constructor
  · rintro ⟨hentry, henters, hfile⟩
    rename_i directories name entry
    cases directories with
    | nil =>
      obtain ⟨node, hnode, hrest⟩ := Option.bind_eq_some_iff.mp hentry
      cases hrest
      exact ⟨name, _, (hentries _ _).mp hnode, Or.inl ⟨hfile, rfl⟩⟩
    | cons first directories =>
      obtain ⟨node, hnode, hrest⟩ := Option.bind_eq_some_iff.mp hentry
      obtain ⟨hfirst, henters⟩ := List.forall_mem_cons.mp henters
      have hplace : place ++ (first :: directories ++ [name]) =
          place ++ [first] ++ (directories ++ [name]) := by simp
      rw [hplace] at hfile ⊢
      exact ⟨first, node, (hentries _ _).mp hnode, Or.inr ⟨hfirst, hrest, henters, hfile⟩⟩
  · rintro ⟨name, node, hentry, ⟨hfile, rfl⟩ | ⟨hname, hrest, henters, hfile⟩⟩
    · refine @IsListed.intro _ _ _ _ [] name node ?_ nofun hfile
      rw [List.nil_append, Node.get?, (hentries _ _).mpr hentry]
      rfl
    · rename_i directories last entry
      have hplace : place ++ [name] ++ (directories ++ [last]) =
          place ++ (name :: directories ++ [last]) := by simp
      rw [hplace] at hfile ⊢
      refine .intro ?_ (List.forall_mem_cons.mpr ⟨hname, henters⟩) hfile
      rw [List.cons_append, Node.get?, (hentries _ _).mpr hentry]
      exact hrest

/-- A listing holds just the places that are listed. -/
theorem mem_filesBelow_iff (h : node.Proper) :
    x ∈ filesBelow t enters place node ↔ IsListed t enters place node x := by
  induction h generalizing place with
  | file | link => exact ⟨nofun, fun hlisted => nomatch hlisted.isDirectory⟩
  | directory hnames _ _ ih =>
    rw [mem_filesBelow_directory, isListed_directory_iff hnames]
    refine exists₂_congr fun name node => and_congr_right fun hentry => or_congr_right ?_
    rw [ih _ hentry]
    exact ⟨And.right, fun hlisted => ⟨hlisted.2.isDirectory, hlisted⟩⟩

/-! ## The order of a listing -/

/-- The order of places in a listing: of two in one directory the lesser name comes first, those in a
directory come before those below its subdirectories, and of two below different subdirectories
comes first the one below that of the lesser name. -/
inductive Precedes : List String → List String → Prop
  | names {a b : String} (h : a < b) : Precedes [a] [b]
  | file (a d x : String) (xs : List String) : Precedes [a] (d :: x :: xs)
  | directories {c d : String} (h : c < d) (x y : String) (xs ys : List String) :
      Precedes (c :: x :: xs) (d :: y :: ys)
  | within (d : String) {xs ys : List String} (h : Precedes xs ys) : Precedes (d :: xs) (d :: ys)

/-- Places keep their order below another place. -/
theorem Precedes.append (place : List String) {xs ys : List String} (h : Precedes xs ys) :
    Precedes (place ++ xs) (place ++ ys) := by
  induction place with
  | nil => exact h
  | cons name place ih => exact .within name ih

/-- What precedes something is not the same. -/
theorem Precedes.ne {xs ys : List String} (h : Precedes xs ys) : xs ≠ ys := by
  induction h with
  | names h => exact fun heq => String.lt_irrefl _ ((List.cons.inj heq).1 ▸ h)
  | file => exact nofun
  | directories h => exact fun heq => String.lt_irrefl _ ((List.cons.inj heq).1 ▸ h)
  | within d _ ih => exact fun heq => ih (List.cons.inj heq).2

/-- The contributions of a directory are put in order, when each of them is in order and holds only
places below its subdirectory. -/
theorem pairwise_arrange {entries : List (String × Contribution)}
    (hnames : (entries.map Prod.fst).Nodup)
    (hbelow : ∀ name places, (name, .below places) ∈ entries →
      places.Pairwise Precedes ∧ ∀ x ∈ places, ∃ first rest, x = place ++ name :: first :: rest) :
    (arrange place entries).Pairwise Precedes := by
  have hsorted := pairwise_mergeSort_name hnames
  unfold arrange
  rw [List.pairwise_append, List.pairwise_flatMap]
  refine ⟨?_, ⟨?_, ?_⟩, ?_⟩
  · -- the files, by their names
    refine hsorted.filterMap _ ?_
    rintro ⟨a, what⟩ ⟨b, what'⟩ hlt x hx y hy
    cases what <;> cases hx
    cases what' <;> cases hy
    exact (Precedes.names hlt).append place
  · rintro ⟨name, what⟩ hmem
    cases what with
    | below places => exact (hbelow name places (List.mem_mergeSort.mp hmem)).1
    | file | nothing => exact List.Pairwise.nil
  · -- what is below two subdirectories
    refine hsorted.imp_of_mem ?_
    rintro ⟨c, what⟩ ⟨d, what'⟩ hc hd hlt x hx y hy
    cases what with
    | file | nothing => cases hx
    | below places =>
      cases what' with
      | file | nothing => cases hy
      | below places' =>
        obtain ⟨first, rest, rfl⟩ := (hbelow c places (List.mem_mergeSort.mp hc)).2 x hx
        obtain ⟨first', rest', rfl⟩ := (hbelow d places' (List.mem_mergeSort.mp hd)).2 y hy
        exact (Precedes.directories hlt first first' rest rest').append place
  · -- a file, and what is below a subdirectory
    intro x hx y hy
    obtain ⟨⟨a, what⟩, -, hfile⟩ := List.mem_filterMap.mp hx
    cases what <;> cases hfile
    obtain ⟨⟨d, what'⟩, hd, hy⟩ := List.mem_flatMap.mp hy
    cases what' with
    | file | nothing => cases hy
    | below places =>
      obtain ⟨first, rest, rfl⟩ := (hbelow d places (List.mem_mergeSort.mp hd)).2 y hy
      exact (Precedes.file a d first rest).append place

/-- The files below a proper node come in order, each once. -/
theorem pairwise_filesBelow (h : node.Proper) :
    (filesBelow t enters place node).Pairwise Precedes := by
  induction h generalizing place with
  | file | link => exact List.Pairwise.nil
  | @directory entries hnames hplain hproper ih =>
    rw [filesBelow, contributions_eq_map]
    refine pairwise_arrange ?_ ?_
    · rw [List.map_map]
      exact hnames
    · intro name places hmem
      obtain ⟨⟨name, node⟩, hentry, heq⟩ := List.mem_map.mp hmem
      obtain ⟨rfl, hbelow⟩ := Prod.mk.inj heq
      obtain ⟨-, -, rfl⟩ := contribution_eq_below_iff.mp hbelow
      refine ⟨ih _ hentry, ?_⟩
      intro x hx
      obtain ⟨-, -, -⟩ := (mem_filesBelow_iff (hproper _ hentry)).mp hx
      rename_i directories last _
      cases directories with
      | nil => exact ⟨last, [], by simp⟩
      | cons first directories => exact ⟨first, directories ++ [last], by simp⟩

/-! ## Where a listing starts -/

variable {p base : Path} {names done todo : List String}

/-- The top is a plain place. -/
theorem isPlain_top : (Path.mk .root []).IsPlain := fun _ hname => nomatch hname

/-- The place above a plain place is plain. -/
theorem isPlain_dropLast (h : (Path.mk .root names).IsPlain) :
    (Path.mk .root names.dropLast).IsPlain :=
  fun name hname => h name (List.dropLast_subset names hname)

/-- The names that a way through a tree ends with are plain, also when it comes back to itself. -/
def PlainEnd : Except (List String) (List String) → Prop
  | .ok names => (Path.mk .root names).IsPlain
  | .error names => (Path.mk .root names).IsPlain

/-- Following the steps of a path ends at a plain place, when following each link does. -/
theorem plainEnd_resolveFrom {follow : List String → Path → Except (List String) (List String)}
    (hfollow : ∀ link target, (Path.mk .root link).IsPlain → target.IsPlain →
      PlainEnd (follow link target))
    (hdone : (Path.mk .root done).IsPlain) (htodo : (Path.mk .root todo).IsPlain) :
    PlainEnd (resolveFrom t follow done todo) := by
  induction todo generalizing done with
  | nil => exact hdone
  | cons name rest ih =>
    obtain ⟨hname, hrest⟩ := List.forall_mem_cons.mp htodo
    have hnext : (Path.mk .root (done ++ [name])).IsPlain :=
      List.forall_mem_append.mpr ⟨hdone, List.forall_mem_singleton.mpr hname⟩
    unfold resolveFrom
    split
    · exact ih (isPlain_dropLast hdone) hrest
    · split
      · rename_i target hlink
        have hend := hfollow (done ++ [name]) (Path.ofText target) hnext
          (Path.isPlain_ofText target)
        split
        · rename_i place hplace
          rw [hplace] at hend
          exact ih hend hrest
        · rename_i names hnames
          rw [hnames] at hend
          exact List.forall_mem_append.mpr ⟨hend, hrest⟩
      · exact ih hnext hrest

/-- Resolving a path ends at a plain place, however many links are left to follow. -/
theorem plainEnd_resolveWithin {left : Nat} {opened : List (List String)}
    (hdone : (Path.mk .root done).IsPlain) (htodo : (Path.mk .root todo).IsPlain) :
    PlainEnd (resolveWithin t left opened done todo) := by
  induction left generalizing opened done todo with
  | zero => exact plainEnd_resolveFrom (fun link _ hlink _ => hlink) hdone htodo
  | succ left ih =>
    refine plainEnd_resolveFrom ?_ hdone htodo
    intro link target hlink htarget
    split
    · exact hlink
    · refine ih ?_ htarget
      split
      · exact isPlain_top
      · exact isPlain_dropLast hlink

/-- Resolving a path without links ends at a plain place. -/
theorem isPlain_resolvePlainly (hdone : (Path.mk .root done).IsPlain)
    (htodo : (Path.mk .root todo).IsPlain) :
    (Path.mk .root (resolvePlainly done todo)).IsPlain := by
  induction todo generalizing done with
  | nil => exact hdone
  | cons name rest ih =>
    obtain ⟨hname, hrest⟩ := List.forall_mem_cons.mp htodo
    unfold resolvePlainly
    split
    · exact ih (isPlain_dropLast hdone) hrest
    · exact ih (List.forall_mem_append.mpr ⟨hdone, List.forall_mem_singleton.mpr hname⟩) hrest

/-- A path resolves to the place at the end of its way, or to the names that are left of it. -/
theorem exists_of_resolve (h : t.resolve p = .ok base) : ∃ names, base = ⟨.root, names⟩ ∧
    (resolveWithin t (t.root.count Node.isLink) [] (t.start p) p.segments = .ok names ∨
      ∃ left, resolveWithin t (t.root.count Node.isLink) [] (t.start p) p.segments = .error left ∧
        names = resolvePlainly [] left) := by
  unfold resolve at h
  simp only at h
  split at h
  · cases h
  · split at h
    · cases h
    · cases h
      refine ⟨_, rfl, ?_⟩
      cases resolveWithin t (t.root.count Node.isLink) [] (t.start p) p.segments with
      | ok place => exact Or.inl rfl
      | error left => exact Or.inr ⟨left, rfl, rfl⟩

/-- A path resolves to a plain one. -/
theorem isPlain_resolve (hhere : (Path.mk .root t.here).IsPlain) (hp : p.IsPlain)
    (h : t.resolve p = .ok base) : base.IsPlain := by
  have hstart : (Path.mk .root (t.start p)).IsPlain := by
    unfold start
    split
    · exact isPlain_top
    · exact hhere
  have hend : PlainEnd (resolveWithin t (t.root.count Node.isLink) [] (t.start p) p.segments) :=
    plainEnd_resolveWithin hstart hp
  obtain ⟨names, rfl, hplace | ⟨left, hleft, rfl⟩⟩ := exists_of_resolve h
  · rw [hplace] at hend
    exact hend
  · rw [hleft] at hend
    exact isPlain_resolvePlainly isPlain_top hend

/-- What a path leads to in a proper tree is proper. -/
theorem proper_of_node {top : Node} (h : t.root.Proper) (hnode : t.node p = .ok top) :
    top.Proper := by
  unfold FileTree.node at hnode
  split at hnode
  · cases hnode
  · split at hnode
    · rename_i hget
      cases hnode
      exact h.of_get? hget
    · cases hnode

/-- The listing below the directory that a path resolves to is in order, and holds just the places
that are listed there. -/
theorem exists_listing (enters : String → Bool) (h : t.root.Proper)
    (hbase : t.resolve p = .ok base) :
    ∃ places : List (List String), t.listing enters p = .ok (places.map (Path.mk .root)) ∧
      places.Pairwise Precedes ∧
      ∀ x, x ∈ places ↔ ∃ top, t.node base = .ok top ∧ IsListed t enters base.segments top x := by
  unfold listing
  simp only [hbase]
  cases hnode : t.node base with
  | ok top =>
    have hproper := proper_of_node h hnode
    refine ⟨filesBelow t enters base.segments top, rfl, pairwise_filesBelow hproper, fun x => ?_⟩
    simp [mem_filesBelow_iff hproper]
  | error e => exact ⟨[], rfl, .nil, by simp⟩

end FileTree

end LintGateway
