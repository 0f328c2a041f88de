import LintGateway.Proofs.FileTree.Listing
import LintGateway.Proofs.Tracked.Registration
import LintGateway.Proofs.Tracked.Suffixes

/-!
# The files that a search finds

A search below a directory is for the files of given suffixes that are come to without going through
a hidden or excluded directory. `IsSought` says which files these are, by the tree and without the
listing; the search finds just these, each of them once and in the order of a listing, and each is
found again in the index by the text of its path (`search_finds_sought`).

The listing of the tree is filtered by suffix, so what is left to say is that the suffix of a name is
what stands from its last dot on, that all paths that are found can be registered, and that they are
plain, so that their texts lead back to them.
-/

set_option autoImplicit false

namespace LintGateway

/-! ## Suffixes -/

namespace Path

/-- A name ends in a suffix: its last dot begins the suffix, and there is something before the dot and
after it. -/
def EndsIn (name suffix : String) : Prop :=
  ∃ stem extension : String, stem ≠ "" ∧ extension ≠ "" ∧ '.' ∉ extension.toList ∧
    suffix = "." ++ extension ∧ name = stem ++ "." ++ extension

/-- The suffix of a name is the one in which it ends. -/
theorem suffixOfName_of_endsIn {name suffix : String} (h : EndsIn name suffix) :
    suffixOfName name = suffix := by
  obtain ⟨stem, extension, hstem, hextension, hdot, rfl, rfl⟩ := h
  have hreversed : (stem ++ "." ++ extension).toList.reverse =
      extension.toList.reverse ++ '.' :: stem.toList.reverse := by simp
  have hkept : ∀ c ∈ extension.toList.reverse, (decide (c ≠ '.')) = true := by
    intro c hc
    rw [decide_eq_true_eq]
    rintro rfl
    exact hdot (List.mem_reverse.mp hc)
  have hafter : (extension.toList.reverse ++ '.' :: stem.toList.reverse).takeWhile (· ≠ '.') =
      extension.toList.reverse := by
    rw [List.takeWhile_append_of_pos hkept]
    simp
  have hbefore : (extension.toList.reverse ++ '.' :: stem.toList.reverse).dropWhile (· ≠ '.') =
      '.' :: stem.toList.reverse := by
    rw [List.dropWhile_append_of_pos hkept]
    simp
  unfold suffixOfName
  simp only [hreversed, hafter, hbefore]
  rw [if_neg (by simpa using ⟨hextension, hstem⟩), List.reverse_reverse]
  apply String.toList_injective
  simp

/-- A name ends in its suffix, if it has one. -/
theorem endsIn_of_suffixOfName {name : String} (h : suffixOfName name ≠ "") :
    EndsIn name (suffixOfName name) := by
  unfold suffixOfName at h ⊢
  simp only at h ⊢
  have hsplit := List.takeWhile_append_dropWhile (p := (· ≠ '.')) (l := name.toList.reverse)
  have hkept : '.' ∉ name.toList.reverse.takeWhile (· ≠ '.') := by
    intro hmem
    simpa using List.all_eq_true.mp List.all_takeWhile _ hmem
  have hfirst := List.head?_dropWhile_not (· ≠ '.') name.toList.reverse
  generalize name.toList.reverse.takeWhile (· ≠ '.') = after at *
  generalize name.toList.reverse.dropWhile (· ≠ '.') = before at *
  split at h
  · exact absurd rfl h
  · rename_i hsome
    rw [if_neg hsome]
    obtain ⟨hafter, hbefore⟩ : after ≠ [] ∧ 1 < before.length := by simpa using hsome
    obtain ⟨first, second, rest, rfl⟩ : ∃ first second rest, before = first :: second :: rest := by
      match before, hbefore with
      | first :: second :: rest, _ => exact ⟨first, second, rest, rfl⟩
    have hdot : first = '.' := by simpa using hfirst
    refine ⟨String.ofList (second :: rest).reverse, String.ofList after.reverse, ?_, ?_, ?_, ?_, ?_⟩
    · simp
    · simpa using hafter
    · simpa using hkept
    · apply String.toList_injective
      simp
    · apply String.toList_injective
      have hname := congrArg List.reverse hsplit
      rw [List.reverse_reverse] at hname
      rw [← hname, hdot]
      simp

end Path

namespace FileIndex

/-! ## Files that are sought -/

/-- A directory that a search goes into: it is not hidden, and not one of those for installed or
generated files. -/
def IsSearched (name : String) : Prop :=
  name.toList.head? ≠ some '.' ∧ name ≠ "node_modules" ∧ name ≠ "__pycache__"

instance (name : String) : Decidable (IsSearched name) :=
  inferInstanceAs (Decidable (_ ∧ _ ∧ _))

/-- The search enters the directories that are searched. -/
theorem enters_iff {name : String} : enters name = true ↔ IsSearched name := by
  simp [enters, IsSearched]

/-- A path that a search below a directory is for: it leads to an entry that stands for a file, from
that directory and through searched directories, and ends in one of the suffixes given. -/
inductive IsSought (t : FileTree) (base : Path) (suffixes : List String) : Path → Prop
  | intro {top entry : Node} {directories : List String} {name suffix : String}
      (htop : t.node base = .ok top) (hentry : top.get? (directories ++ [name]) = some entry)
      (hsearched : ∀ directory ∈ directories, IsSearched directory)
      (hfile : FileTree.StandsForFile t (base.segments ++ (directories ++ [name])) entry)
      (hsuffix : Path.EndsIn name suffix)
      (hgiven : Text.lower suffix ∈ Suffix.normalize suffixes) :
      IsSought t base suffixes ⟨.root, base.segments ++ (directories ++ [name])⟩

variable {t : FileTree} {base directory p : Path} {suffixes : List String}

/-- A suffix is accepted when a name ends in it; a name without a suffix never is. -/
theorem accepts_suffix_iff {name : String} :
    Text.lower (Path.suffixOfName name) ∈ Suffix.normalize suffixes ↔
      ∃ suffix, Path.EndsIn name suffix ∧ Text.lower suffix ∈ Suffix.normalize suffixes := by
  constructor
  · intro h
    refine ⟨_, Path.endsIn_of_suffixOfName ?_, h⟩
    intro hnone
    have hsome := (Suffix.isNormal_of_mem_normalize h).dotted.ne_empty
    rw [hnone] at hsome
    exact hsome rfl
  · rintro ⟨suffix, hends, h⟩
    rwa [Path.suffixOfName_of_endsIn hends]

/-- The suffix of a path is that of its last name. -/
theorem suffix_of_segments {names : List String} {name : String} (anchor : Anchor) :
    (Path.mk anchor (names ++ [name])).suffix = Path.suffixOfName name := by
  simp [Path.suffix, Path.name]

/-- A sought path is plain. -/
theorem IsSought.isPlain (hproper : t.root.Proper) (hbase : base.IsPlain)
    (h : IsSought t base suffixes p) : p.IsPlain := by
  obtain ⟨htop, hentry, -, -, -, -⟩ := h
  have hnames := (FileTree.proper_of_node hproper htop).isPlain_of_get? hentry
  exact List.forall_mem_append.mpr ⟨hbase, hnames⟩

/-- What is sought is listed and has an accepted suffix. -/
theorem isSought_iff {x : List String} :
    IsSought t base suffixes ⟨.root, x⟩ ↔
      (∃ top, t.node base = .ok top ∧ FileTree.IsListed t enters base.segments top x) ∧
        Text.lower (Path.mk .root x).suffix ∈ Suffix.normalize suffixes := by
  constructor
  · rintro ⟨htop, hentry, hsearched, hfile, hsuffix, hgiven⟩
    refine ⟨⟨_, htop, hentry, fun directory h => enters_iff.mpr (hsearched directory h), hfile⟩, ?_⟩
    rw [← List.append_assoc, suffix_of_segments]
    exact accepts_suffix_iff.mpr ⟨_, hsuffix, hgiven⟩
  · rintro ⟨⟨top, htop, hentry, henters, hfile⟩, hgiven⟩
    rw [← List.append_assoc, suffix_of_segments] at hgiven
    obtain ⟨suffix, hsuffix, hgiven⟩ := accepts_suffix_iff.mp hgiven
    exact .intro htop hentry (fun directory h => enters_iff.mp (henters directory h)) hfile hsuffix
      hgiven

/-- A sought path is absolute. -/
theorem IsSought.exists_eq (h : IsSought t base suffixes p) : ∃ x, p = ⟨.root, x⟩ := by
  cases h
  exact ⟨_, rfl⟩

/-- The paths of a listing that are registered: those with an accepted suffix. -/
def kept (places : List (List String)) (suffixes : List String) : List Path :=
  (places.map (Path.mk .root)).filter fun p => Text.lower p.suffix ∈ Suffix.normalize suffixes

/-- The paths kept of the listed places are those that are sought. -/
theorem mem_kept_iff {places : List (List String)}
    (hplaces : ∀ x, x ∈ places ↔
      ∃ top, t.node base = .ok top ∧ FileTree.IsListed t enters base.segments top x) :
    p ∈ kept places suffixes ↔ IsSought t base suffixes p := by
  unfold kept
  rw [List.mem_filter, List.mem_map, decide_eq_true_eq]
  constructor
  · rintro ⟨⟨x, hx, rfl⟩, hsuffix⟩
    exact isSought_iff.mpr ⟨(hplaces x).mp hx, hsuffix⟩
  · intro h
    obtain ⟨x, rfl⟩ := h.exists_eq
    obtain ⟨hlisted, hsuffix⟩ := isSought_iff.mp h
    exact ⟨⟨x, (hplaces x).mpr hlisted, rfl⟩, hsuffix⟩

/-- The paths that are kept are absolute. -/
theorem isAbsolute_of_mem_kept {places : List (List String)} (h : p ∈ kept places suffixes) :
    p.isAbsolute = true := by
  obtain ⟨x, -, rfl⟩ := List.mem_map.mp (List.mem_filter.mp h).1
  rfl

/-- The paths that are kept are in the order of the places. -/
theorem pairwise_kept {places : List (List String)} (h : places.Pairwise FileTree.Precedes) :
    (kept places suffixes).Pairwise fun p q => FileTree.Precedes p.segments q.segments := by
  have hpaths : (places.map (Path.mk .root)).Pairwise fun p q =>
      FileTree.Precedes p.segments q.segments := List.pairwise_map.mpr h
  exact hpaths.filter _

/-- A search below a directory that is there to be listed registers what is sought, in order. -/
theorem exists_search (hproper : t.root.Proper) (hbase : t.resolve directory = .ok base) :
    ∃ index, search t directory suffixes = .ok index ∧
      (∀ p, p ∈ index.files.map InputFile.path ↔ IsSought t base suffixes p) ∧
      (index.files.map InputFile.path).Pairwise fun p q =>
        FileTree.Precedes p.segments q.segments := by
  obtain ⟨places, hlisting, horder, hplaces⟩ := FileTree.exists_listing enters hproper hbase
  have hkept : (kept places suffixes).Pairwise fun p q =>
      FileTree.Precedes p.segments q.segments := pairwise_kept horder
  have hnodup : (kept places suffixes).Nodup :=
    hkept.imp fun hprecedes heq => hprecedes.ne (congrArg Path.segments heq)
  obtain ⟨index, hindex, hfiles⟩ := exists_ofPaths fun p hp => isAbsolute_of_mem_kept hp
  rw [eraseDups_of_nodup hnodup] at hfiles
  unfold kept at hindex
  refine ⟨index, ?_, ?_, ?_⟩
  · unfold search
    simp only [hlisting, hindex]
    rfl
  · intro p
    rw [hfiles]
    exact mem_kept_iff hplaces
  · rw [hfiles]
    exact hkept

/-- A search below a directory fails as resolving it fails. Otherwise it finds just the files that
are sought there, each once and in the order of a listing, and each of them is found again by the
text of its path. -/
theorem search_finds_sought (hproper : t.root.Proper) (hhere : (Path.mk .root t.here).IsPlain)
    (hdirectory : directory.IsPlain) (suffixes : List String) :
    (∀ e, t.resolve directory = .error e → search t directory suffixes = .error (.file e)) ∧
      ∀ base, t.resolve directory = .ok base →
        ∃ index, search t directory suffixes = .ok index ∧
          (∀ p, p ∈ index.files.map InputFile.path ↔ IsSought t base suffixes p) ∧
          (index.files.map InputFile.path).Nodup ∧
          ((index.files.map InputFile.path).Pairwise fun p q =>
            FileTree.Precedes p.segments q.segments) ∧
          ∀ f ∈ index.files, index.get? f.toText = some f := by
  constructor
  · intro e he
    unfold search FileTree.listing
    simp only [he]
  · intro base hbase
    obtain ⟨index, hsearch, hsought, horder⟩ := exists_search hproper hbase
    refine ⟨index, hsearch, hsought, index.paths_nodup, horder, ?_⟩
    intro f hf
    have hplain := FileTree.isPlain_resolve hhere hdirectory hbase
    have hfound := (hsought f.path).mp (List.mem_map.mpr ⟨f, hf, rfl⟩)
    exact get?_toText hf (hfound.isPlain hproper hplain)

/-- A directory with a style sheet, a subdirectory with another one, a hidden directory with a third
one and a link that is called like a style sheet and leads to the subdirectory. -/
def mixedDirectory : Node :=
  .directory
    [("b.CSS", .file .empty 0o644),
      ("a", .directory [("d.css", .file .empty 0o644)]),
      (".git", .directory [("c.css", .file .empty 0o644)]),
      ("l.css", .link "a")]

/-- The tree with that directory in it. -/
def mixedTree : FileTree := ⟨.directory [("p", mixedDirectory)], []⟩

/-- The mixed tree is proper. -/
theorem proper_mixedTree : mixedTree.root.Proper := by
  refine .directory (by decide) (by decide) ?_
  refine List.forall_mem_singleton.mpr (.directory (by decide) (by decide) ?_)
  simp only [List.forall_mem_cons]
  have hstyleSheet : ∀ name : String, name ≠ "" ∧ name ≠ "." ∧ '/' ∉ name.toList →
      (Node.directory [(name, .file .empty 0o644)]).Proper := by
    intro name hname
    refine .directory (by simp [Members.names]) (List.forall_mem_singleton.mpr hname) ?_
    exact List.forall_mem_singleton.mpr (.file _ _)
  exact ⟨.file _ _, hstyleSheet _ (by decide), hstyleSheet _ (by decide), .link _, by simp⟩

/-- In that tree the two style sheets that are not in the hidden directory are found. -/
theorem search_finds_sought_mixedTree :
    ∃ index, search mixedTree ⟨.root, ["p"]⟩ ["css"] = .ok index ∧
      ⟨.root, ["p", "b.CSS"]⟩ ∈ index.files.map InputFile.path ∧
      ⟨.root, ["p", "a", "d.css"]⟩ ∈ index.files.map InputFile.path := by
  have hplain : (Path.mk .root ["p"]).IsPlain := List.forall_mem_singleton.mpr (by decide)
  obtain ⟨index, hsearch, hsought, -⟩ := (search_finds_sought proper_mixedTree
    FileTree.isPlain_top hplain ["css"]).2 ⟨.root, ["p"]⟩ rfl
  have hown : IsSought mixedTree ⟨.root, ["p"]⟩ ["css"] ⟨.root, ["p"] ++ ([] ++ ["b.CSS"])⟩ :=
    .intro rfl rfl nofun ⟨rfl, nofun⟩
      ⟨"b", "CSS", by decide, by decide, by decide, rfl, rfl⟩ (by decide)
  have hbelow : IsSought mixedTree ⟨.root, ["p"]⟩ ["css"] ⟨.root, ["p"] ++ (["a"] ++ ["d.css"])⟩ :=
    .intro rfl rfl (List.forall_mem_singleton.mpr (by decide)) ⟨rfl, nofun⟩
      ⟨"d", "css", by decide, by decide, by decide, rfl, rfl⟩ (by decide)
  exact ⟨index, hsearch, (hsought _).mpr hown, (hsought _).mpr hbelow⟩

end FileIndex

end LintGateway
