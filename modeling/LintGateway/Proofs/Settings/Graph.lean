import LintGateway.Proofs.Text.Utf8
import LintGateway.Proofs.Traversal
import LintGateway.Settings.Source
import Mathlib.Data.List.Chain
import Mathlib.Data.String.Basic
import Mathlib.Logic.Relation

/-!
# The graph of settings documents

The documents of a source form a graph: its nodes are the places of documents, and an edge leads
from a document to each place that one of its includes leads to (`Includes`). What a document says
does not hang on the way to it, except that the first one is the only one of which a section is
selected (`Says`).

The hypotheses of what is proved about loading are of two kinds: `Readable`, that the documents that
can be reached are well formed, and `LooksUp`, that their paths are short enough for the system.
Both hold as soon as a set of places is closed under includes and its documents are such (`Closed`).
-/

set_option autoImplicit false

namespace LintGateway.Settings.Source

section Graph

variable (tree : FileTree) (source : Source) (top : Path)

/-- The path of a document leads to a place where something is. -/
def LeadsTo (document place : Path) : Prop :=
  ∃ node, find tree document = .ok (some (place, node))

/-- The file at a place is a document with these settings: the selected ones in the document at
`top`, from which the source starts, and all of them in any other. -/
def Says (place : Path) (own : Value.Table) : Prop :=
  ∃ content mode whole, tree.root.get? place.segments = some (.file content mode) ∧
    parse place content = .ok whole ∧
    own = if place = top then select source.scope whole else whole

/-- The document at a place declares the path of a document that it includes. -/
def Declares (place document : Path) : Prop :=
  ∃ own documents, Says tree source top place own ∧
    includes place.parent (Members.get? own source.includeName) = .ok documents ∧
    document ∈ documents

/-- The document at a place includes one that is at another place. -/
def Includes (place next : Path) : Prop :=
  ∃ document, Declares tree source top place document ∧ LeadsTo tree document next

/-- A place can be reached from `top` by includes. -/
def Reaches (place : Path) : Prop := Relation.ReflTransGen (Includes tree source top) top place

/-- Places that include each other one after the other, from `top` on. -/
def IsWalk (chain : List Path) : Prop :=
  chain.head? = some top ∧ chain.IsChain (Includes tree source top)

end Graph

/-- What a document may say of its includes: nothing, or a text, or a list of texts. -/
def IsDeclaration : Option Value → Prop
  | none => True
  | some (.text _) => True
  | some (.list items) => ∀ v ∈ items, ∃ s, v = .text s
  | some _ => False

section Hypotheses

variable (tree : FileTree) (source : Source)

/-- Every document that can be reached is a file with TOML in it, and what it says of its includes
is well formed. -/
def Readable : Prop :=
  ∀ top place, LeadsTo tree source.document top → Reaches tree source top place →
    ∃ own, Says tree source top place own ∧
      IsDeclaration (Members.get? own source.includeName)

/-- The paths of the first document and of all includes that can be reached are short enough to be
looked up. -/
structure LooksUp : Prop where
  document : tree.locate source.document false ≠ .error .nameTooLong
  declared : ∀ top place document, LeadsTo tree source.document top →
    Reaches tree source top place → Declares tree source top place document →
    tree.locate document false ≠ .error .nameTooLong

/-- Some document that can be reached reaches itself again. -/
def HasCycle : Prop :=
  ∃ top place, LeadsTo tree source.document top ∧ Reaches tree source top place ∧
    Relation.TransGen (Includes tree source top) place place

end Hypotheses

variable {tree : FileTree} {source : Source} {top : Path}

/-! ## Documents -/

/-- A document is found at an absolute place, where its node is. -/
theorem find_eq_some {document place : Path} {node : Node}
    (h : find tree document = .ok (some (place, node))) :
    place.anchor = .root ∧ tree.root.get? place.segments = some node := by
  unfold find at h
  split at h
  · cases h
  · cases h
  · rename_i names _
    simp only [Except.ok.injEq, Option.map_eq_some_iff, Prod.mk.injEq] at h
    obtain ⟨found, hget, rfl, rfl⟩ := h
    exact ⟨rfl, hget⟩

/-- A document with a name that is too long is not looked for. -/
theorem find_of_tooLong {document : Path} (h : tree.locate document false = .error .nameTooLong) :
    find tree document = .error (.file .nameTooLong) := by
  unfold find
  rw [h]

/-- A document whose names are not too long is looked for. -/
theorem find_ne_error {document : Path} (h : tree.locate document false ≠ .error .nameTooLong) :
    ∃ found, find tree document = .ok found := by
  unfold find
  split
  · rename_i hlong
    exact absurd hlong h
  · exact ⟨none, rfl⟩
  · exact ⟨_, rfl⟩

/-- A document is found at one place. -/
theorem LeadsTo.eq {document place other : Path} {node : Node}
    (h : find tree document = .ok (some (place, node)))
    (hother : LeadsTo tree document other) : other = place := by
  obtain ⟨node', hfind⟩ := hother
  rw [h] at hfind
  simp only [Except.ok.injEq, Option.some.injEq, Prod.mk.injEq] at hfind
  exact hfind.1.symm

/-- A document that is missing leads nowhere. -/
theorem not_leadsTo {document : Path} (h : find tree document = .ok none) (place : Path) :
    ¬ LeadsTo tree document place := by
  rintro ⟨node, hplace⟩
  rw [h] at hplace
  cases hplace

/-- Whether a content is TOML, and which table it is, does not hang on the name of the document. -/
theorem parse_eq_ok_of_eq_ok {document other : Path} {content : ByteArray} {whole : Value.Table}
    (h : parse document content = .ok whole) : parse other content = .ok whole := by
  unfold parse at h ⊢
  cases hdecode : Text.decode content with
  | error stop =>
    rw [hdecode] at h
    cases h
  | ok s =>
    rw [hdecode] at h
    cases hread : Toml.read s with
    | error e =>
      simp only [hread] at h
      cases e <;> cases h
    | ok t =>
      simp only [hread] at h ⊢
      exact h

/-- A document says one table. -/
theorem Says.eq {place : Path} {own other : Value.Table} (h : Says tree source top place own)
    (hother : Says tree source top place other) : own = other := by
  obtain ⟨content, mode, whole, hget, hparse, rfl⟩ := h
  obtain ⟨content', mode', whole', hget', hparse', rfl⟩ := hother
  rw [hget] at hget'
  obtain ⟨rfl, rfl⟩ := Node.file.inj (Option.some.inj hget')
  rw [hparse] at hparse'
  rw [Except.ok.inj hparse']

/-- An include list that is declared well is read. -/
theorem exists_includes_of_isDeclaration (base : Path) {raw : Option Value}
    (h : IsDeclaration raw) : ∃ documents, includes base raw = .ok documents := by
  cases raw with
  | none => exact ⟨[], rfl⟩
  | some v =>
    cases v with
    | text s => exact ⟨[base.join (Path.ofText s)], rfl⟩
    | list items =>
      have hitems : ∀ v ∈ items, ∃ p, ∃ s, v = .text s ∧ base.join (Path.ofText s) = p := by
        intro v hv
        obtain ⟨s, hs⟩ := h v hv
        exact ⟨_, s, hs, rfl⟩
      obtain ⟨documents, hdocuments⟩ := (exists_forall₂_iff _ items).mpr hitems
      refine ⟨documents, (mapM_eq_ok_iff _ items documents).mpr (hdocuments.imp ?_)⟩
      rintro _ _ ⟨s, rfl, rfl⟩
      rfl
    | _ => exact absurd h (by simp [IsDeclaration])

/-- An include list that is read is declared well. -/
theorem isDeclaration_of_includes {base : Path} {raw : Option Value} {documents : List Path}
    (h : includes base raw = .ok documents) : IsDeclaration raw := by
  cases raw with
  | none => trivial
  | some v =>
    cases v with
    | text s => trivial
    | list items =>
      have hitems := (mapM_eq_ok_iff _ items documents).mp h
      intro v hv
      obtain ⟨p, hp⟩ := (exists_forall₂_iff _ items).mp ⟨documents, hitems⟩ v hv
      cases v with
      | text s => exact ⟨s, rfl⟩
      | _ => cases hp
    | _ =>
      simp only [includes] at h
      split at h <;> cases h

/-! ## Closed sets of documents -/

/-- The place that the path of a document leads to, if something is there. -/
def placeOf? (tree : FileTree) (document : Path) : Option Path :=
  match find tree document with
  | .ok (some (place, _)) => some place
  | _ => none

/-- A document that is not looked for has no place. -/
theorem placeOf?_of_error {tree : FileTree} {document : Path} {e : LoadError}
    (h : find tree document = .error e) : placeOf? tree document = none := by
  unfold placeOf?
  rw [h]

/-- The place of a document is the one to which it leads. -/
theorem mem_placeOf?_iff {document place : Path} :
    place ∈ placeOf? tree document ↔ LeadsTo tree document place := by
  unfold placeOf? LeadsTo
  rw [Option.mem_def]
  split
  · rename_i found node hfind
    rw [hfind]
    simp [eq_comm]
  · rename_i hnone
    simp only [reduceCtorEq, false_iff]
    rintro ⟨node, hfind⟩
    exact hnone place node hfind

/-- The documents at these places are well formed and declare the paths listed with them, and each
of those leads to one of the places or nowhere. -/
structure Closed (tree : FileTree) (source : Source) (top : Path)
    (graph : List (Path × List Path)) : Prop where
  documents : ∀ node ∈ graph, ∃ own, Says tree source top node.1 own ∧
    includes node.1.parent (Members.get? own source.includeName) = .ok node.2
  inside : ∀ node ∈ graph, ∀ document ∈ node.2, ∀ next ∈ placeOf? tree document,
    next ∈ graph.map Prod.fst

variable {graph : List (Path × List Path)}

/-- A closed graph has every document that one of its places declares. -/
theorem Closed.of_declares {place document : Path} {documents : List Path}
    (h : Closed tree source top graph) (hmem : (place, documents) ∈ graph)
    (hdeclares : Declares tree source top place document) : document ∈ documents := by
  obtain ⟨own, others, hsaid, hothers, hdocument⟩ := hdeclares
  obtain ⟨own', hsaid', hdocuments⟩ := h.documents _ hmem
  obtain rfl := hsaid.eq hsaid'
  obtain rfl := Except.ok.inj (hothers.symm.trans hdocuments)
  exact hdocument

/-- A closed graph has an edge to every document that is found. -/
theorem Closed.includes {place document next : Path} {documents : List Path} {node : Node}
    (h : Closed tree source top graph) (hmem : (place, documents) ∈ graph)
    (hdocument : document ∈ documents)
    (hnext : find tree document = .ok (some (next, node))) :
    Includes tree source top place next := by
  obtain ⟨own, hsaid, hdocuments⟩ := h.documents _ hmem
  exact ⟨document, ⟨own, documents, hsaid, hdocuments, hdocument⟩, node, hnext⟩

/-- A closed graph has every place that is reached from the top. -/
theorem Closed.mem_of_reaches {documents : List Path} {place : Path}
    (h : Closed tree source top graph) (htop : (top, documents) ∈ graph)
    (hreach : Reaches tree source top place) : ∃ others, (place, others) ∈ graph := by
  induction hreach with
  | refl => exact ⟨documents, htop⟩
  | tail _ hedge ih =>
    obtain ⟨others, hmem⟩ := ih
    obtain ⟨document, hdeclares, hleads⟩ := hedge
    obtain ⟨⟨next, more⟩, hnext, rfl⟩ := List.mem_map.mp
      (h.inside _ hmem document (h.of_declares hmem hdeclares) _ (mem_placeOf?_iff.mpr hleads))
    exact ⟨more, hnext⟩

/-- Where a source starts in a closed set, all that can be reached is well formed. -/
theorem Closed.readable {node : Node} {documents : List Path} (h : Closed tree source top graph)
    (htop : (top, documents) ∈ graph)
    (hfound : find tree source.document = .ok (some (top, node))) : Readable tree source := by
  intro other place hother hreach
  rw [LeadsTo.eq hfound hother] at hreach ⊢
  obtain ⟨others, hmem⟩ := h.mem_of_reaches htop hreach
  obtain ⟨own, hsaid, hothers⟩ := h.documents _ hmem
  exact ⟨own, hsaid, isDeclaration_of_includes hothers⟩

/-- Where a source starts in a closed set, only the paths listed in it are looked up. -/
theorem Closed.looksUp {node : Node} {documents : List Path} (h : Closed tree source top graph)
    (htop : (top, documents) ∈ graph)
    (hfound : find tree source.document = .ok (some (top, node)))
    (hshort : ∀ node ∈ graph, ∀ document ∈ node.2,
      tree.locate document false ≠ .error .nameTooLong) : LooksUp tree source := by
  refine ⟨?_, ?_⟩
  · intro hlong
    simp only [find, hlong] at hfound
    cases hfound
  · rintro other place document hother hreach hdeclares
    rw [LeadsTo.eq hfound hother] at hreach hdeclares
    obtain ⟨others, hmem⟩ := h.mem_of_reaches htop hreach
    exact hshort _ hmem document (h.of_declares hmem hdeclares)

/-- Where the places of a closed set come down in rank along includes, there is no cycle. -/
theorem Closed.not_hasCycle {node : Node} {documents : List Path} (rank : Path → Nat)
    (h : Closed tree source top graph) (htop : (top, documents) ∈ graph)
    (hfound : find tree source.document = .ok (some (top, node)))
    (hrank : ∀ node ∈ graph, ∀ document ∈ node.2, ∀ next ∈ placeOf? tree document,
      rank next < rank node.1) : ¬ HasCycle tree source := by
  rintro ⟨other, place, hother, hreach, hcycle⟩
  rw [LeadsTo.eq hfound hother] at hreach hcycle
  have hedge : ∀ first next, Reaches tree source top first →
      Includes tree source top first next → rank next < rank first := by
    rintro first next hfirst ⟨document, hdeclares, hleads⟩
    obtain ⟨others, hmem⟩ := h.mem_of_reaches htop hfirst
    exact hrank _ hmem document (h.of_declares hmem hdeclares) next (mem_placeOf?_iff.mpr hleads)
  have hdown : ∀ last, Relation.TransGen (Includes tree source top) place last →
      Reaches tree source top last ∧ rank last < rank place := by
    intro last hlast
    induction hlast with
    | single hnext => exact ⟨hreach.tail hnext, hedge _ _ hreach hnext⟩
    | tail _ hnext ih => exact ⟨ih.1.tail hnext, (hedge _ _ ih.1 hnext).trans ih.2⟩
  exact lt_irrefl _ (hdown place hcycle).2

/-! ## Documents given by their text -/

/-- The tree with these documents, given by their names and texts, next to each other at its top. -/
def documentTree (documents : List (String × String)) : FileTree :=
  ⟨.directory (documents.map fun d => (d.1, .file d.2.toUTF8 0o644)), []⟩

/-- A file with a TOML text says the table of that text. -/
theorem Says.of_text {place : Path} {text : String} {mode : Nat} {whole : Value.Table}
    (hget : tree.root.get? place.segments = some (.file text.toUTF8 mode))
    (hread : Toml.read text = .ok whole) :
    Says tree source top place (if place = top then select source.scope whole else whole) := by
  refine ⟨text.toUTF8, mode, whole, hget, ?_, rfl⟩
  unfold parse
  rw [Text.decode_toUTF8]
  simp only [hread]

/-! ## A path that is too long to be looked up -/

/-- A name without slashes is the path of that name alone. -/
theorem ofText_name {cs : List Char} (hslash : '/' ∉ cs) (hempty : cs ≠ []) (hdot : cs ≠ ['.']) :
    Path.ofText (String.ofList cs) = ⟨.here, [String.ofList cs]⟩ := by
  have hname : String.ofList cs ≠ "" := fun h => hempty (String.ofList_injective h)
  have hself : String.ofList cs ≠ "." := fun h => hdot (String.ofList_injective h)
  have hfront : cs.takeWhile (· = '/') = [] := by
    cases cs with
    | nil => rfl
    | cons c cs =>
      have hc : c ≠ '/' := fun h => hslash (h ▸ List.mem_cons_self)
      simp [hc]
  rw [Path.ofText_ofList, Text.splitChars_of_not_mem hslash, hfront]
  simp [hname, hself, Path.anchorOfSlashes]

/-- A name in the top directory that is longer than a name may be is not looked up. -/
theorem locate_of_long {entries : List (String × Node)} {here : List String} {cs : List Char}
    (hnull : '\x00' ∉ cs) (hlong : FileTree.maxNameLength < String.utf8Len cs) :
    (FileTree.mk (.directory entries) here).locate ⟨.root, [String.ofList cs]⟩ false =
      .error .nameTooLong := by
  have hsize : FileTree.maxNameLength < (String.ofList cs).utf8ByteSize := by
    rwa [String.utf8ByteSize_ofList]
  have hdot : String.ofList cs ≠ "." := by
    intro h
    rw [h] at hsize
    exact absurd hsize (by decide)
  have hdots : String.ofList cs ≠ ".." := by
    intro h
    rw [h] at hsize
    exact absurd hsize (by decide)
  have hholds : (⟨.root, [String.ofList cs]⟩ : Path).holdsNull = false := by
    simp [Path.holdsNull, hnull]
  unfold FileTree.locate
  rw [hholds]
  simp only [Bool.false_eq_true, if_false]
  split
  · rfl
  · simp [FileTree.maxLinks, FileTree.locateWithin, FileTree.locateFrom, FileTree.start,
      Path.isAbsolute, Node.get?, hdot, hdots, hsize]

/-- A name with one byte more than an entry of a directory may have. -/
def longName : List Char := List.replicate 64 '𝕏'

end LintGateway.Settings.Source
