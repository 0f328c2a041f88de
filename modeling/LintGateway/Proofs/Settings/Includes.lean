import LintGateway.Proofs.FileTree.Files
import LintGateway.Proofs.Settings.Graph
import LintGateway.Proofs.Toml.Assignments
import Mathlib.Data.List.Nodup

/-!
# Includes and their cycles

Loading follows the edges of the graph of documents from the first one on and keeps the way to where
it is. That way is a walk of different files (`IsStack`), so it has no more places than the tree has
files; the bound on the length of the way in `load` is never reached, and any greater bound gives
the same result.

What loading ends with says whether the graph has a cycle. When a document is loaded, everything it
includes has been, so no endless walk starts from it (`Ends`); when loading stops at a document that
is still being loaded, the way to it closes a cycle. Hence loading fails with a circular include
exactly when some document that can be reached reaches itself again (`load_circular_iff`). One thing
hides a cycle: an include that is too long to be looked up ends the loading before.
-/

set_option autoImplicit false

namespace LintGateway.Settings.Source

variable {tree : FileTree} {source : Source} {top : Path}

/-! ## One document being loaded -/

variable {left : Nat} {loading : List Path} {document place : Path}

/-- A document that is missing is loaded as an empty table. -/
theorem loadFrom_of_missing (h : find tree document = .ok none) :
    loadFrom tree source (left + 1) loading document = .ok [] := by
  simp only [loadFrom, h]

/-- A document that is not looked for is not loaded. -/
theorem loadFrom_of_error {e : LoadError} (h : find tree document = .error e) :
    loadFrom tree source (left + 1) loading document = .error e := by
  simp only [loadFrom, h]

/-- A document that is being loaded already is circular. -/
theorem loadFrom_of_mem {node : Node} (h : find tree document = .ok (some (place, node)))
    (hmem : place ∈ loading) :
    loadFrom tree source (left + 1) loading document =
      .error (.config (.circularInclude (loading ++ [place]))) := by
  simp only [loadFrom, h, if_pos hmem]
  rfl

/-- A document that is not being loaded yet is merged over what it includes. -/
theorem loadFrom_of_not_mem {content : ByteArray} {mode : Nat} {whole own : Value.Table}
    {documents : List Path} (h : find tree document = .ok (some (place, .file content mode)))
    (hnew : place ∉ loading) (hparse : parse document content = .ok whole)
    (hown : own = if loading = [] then select source.scope whole else whole)
    (hdocuments : includes place.parent (Members.get? own source.includeName) = .ok documents) :
    loadFrom tree source (left + 1) loading document =
      (documents.mapM (loadFrom tree source left (loading ++ [place]))).map fun included =>
        merge (mergeAll included) (Members.erase own source.includeName) := by
  have hown : own = if loading.isEmpty then select source.scope whole else whole := by
    rw [hown]
    cases loading <;> rfl
  simp only [loadFrom, h, if_neg hnew, hparse]
  show ((includes place.parent (Members.get? _ _) >>= _ : Except LoadError Value.Table)) = _
  rw [← hown, hdocuments]
  show (documents.mapM (loadFrom tree source left (loading ++ [place])) >>= _) = _
  cases documents.mapM (loadFrom tree source left (loading ++ [place])) <;> rfl

/-- A document that is new is merged over its includes, loaded one after the other. -/
theorem loadFrom_of_own {node : Node} {own : Value.Table} {documents : List Path}
    (hfound : find tree document = .ok (some (place, node))) (hnew : place ∉ loading)
    (hfirst : loading = [] ↔ place = top) (hsaid : Says tree source top place own)
    (hdocuments : includes place.parent (Members.get? own source.includeName) = .ok documents) :
    loadFrom tree source (left + 1) loading document =
      (documents.mapM (loadFrom tree source left (loading ++ [place]))).map fun included =>
        merge (mergeAll included) (Members.erase own source.includeName) := by
  obtain ⟨content, mode, whole, hget, hparse, hown⟩ := hsaid
  have hnode : node = .file content mode := by
    have hfind := (find_eq_some hfound).2
    rw [hget] at hfind
    exact (Option.some.inj hfind).symm
  rw [hnode] at hfound
  have hown' : own = if loading = [] then select source.scope whole else whole := by
    rw [hown]
    exact if_congr hfirst.symm rfl rfl
  exact loadFrom_of_not_mem hfound hnew (parse_eq_ok_of_eq_ok hparse) hown' hdocuments

/-! ## The way to a document -/

/-- Loading is at the first document, which leads to `top`, or below it. -/
def IsBelow (tree : FileTree) (top : Path) (loading : List Path) (document : Path) : Prop :=
  (loading = [] ∧ ∀ place, LeadsTo tree document place → place = top) ∨ top ∈ loading

/-- Below the document first loaded a new one is first where it is that document. -/
theorem IsBelow.first_iff (h : IsBelow tree top loading document)
    (hleads : LeadsTo tree document place) (hnew : place ∉ loading) :
    loading = [] ↔ place = top := by
  rcases h with ⟨hnil, honly⟩ | hin
  · exact ⟨fun _ => honly place hleads, fun _ => hnil⟩
  · constructor
    · rintro rfl
      cases hin
    · rintro rfl
      exact absurd hin hnew

/-- A document below the first one has its own includes below the first one. -/
theorem IsBelow.next (h : IsBelow tree top loading document) (hleads : LeadsTo tree document place)
    (next : Path) : IsBelow tree top (loading ++ [place]) next := by
  rcases h with ⟨-, honly⟩ | hin
  · rw [honly place hleads]
    exact Or.inr (List.mem_append_right _ List.mem_cons_self)
  · exact Or.inr (List.mem_append_left _ hin)

/-- The documents being loaded, from the first one on: a walk along different files. -/
structure IsStack (tree : FileTree) (source : Source) (top : Path) (loading : List Path) :
    Prop where
  walk : IsWalk tree source top loading
  nodup : loading.Nodup
  files : ∀ place ∈ loading, place.anchor = .root ∧
    ∃ content mode, tree.root.get? place.segments = some (.file content mode)

/-- The document first loaded is among those being loaded. -/
theorem IsStack.top_mem (h : IsStack tree source top loading) : top ∈ loading :=
  List.mem_of_mem_head? h.walk.1

/-- The way to a document has no more places than the tree has files. -/
theorem IsStack.length_le (h : IsStack tree source top loading) :
    loading.length ≤ tree.root.count Node.isFile := by
  have hinjective : ∀ p ∈ loading, ∀ q ∈ loading, p.segments = q.segments → p = q := by
    intro p hp q hq hpq
    have hanchor : p.anchor = q.anchor := (h.files p hp).1.trans (h.files q hq).1.symm
    cases p
    cases q
    simp_all
  have hnodup : (loading.map Path.segments).Nodup :=
    List.Nodup.map_on (fun p hp q hq hpq => hinjective p hp q hq hpq) h.nodup
  have hfiles : ∀ names ∈ loading.map Path.segments,
      ∃ content mode, tree.root.get? names = some (.file content mode) := by
    intro names hnames
    obtain ⟨p, hp, rfl⟩ := List.mem_map.mp hnames
    exact (h.files p hp).2
  have hlength := Node.length_le_count_of_nodup hnodup hfiles
  rwa [List.length_map] at hlength

/-- A walk goes on along an edge. -/
theorem IsWalk.concat {last next : Path} (h : IsWalk tree source top loading)
    (hlast : loading.getLast? = some last) (hnext : Includes tree source top last next) :
    IsWalk tree source top (loading ++ [next]) := by
  refine ⟨?_, h.2.append (List.isChain_singleton next) ?_⟩
  · rw [List.head?_append, h.1]
    rfl
  · intro x hx y hy
    rw [hlast] at hx
    obtain rfl := Option.some.inj hx
    obtain rfl := Option.some.inj hy
    exact hnext

/-- An include that is new is loaded beside those being loaded. -/
theorem IsStack.concat {last next : Path} {content : ByteArray} {mode : Nat}
    (h : IsStack tree source top loading) (hlast : loading.getLast? = some last)
    (hedge : Includes tree source top last next) (hnew : next ∉ loading)
    (hanchor : next.anchor = .root)
    (hget : tree.root.get? next.segments = some (.file content mode)) :
    IsStack tree source top (loading ++ [next]) := by
  refine ⟨h.walk.concat hlast hedge, ?_, ?_⟩
  · rw [List.nodup_append]
    refine ⟨h.nodup, List.nodup_singleton next, ?_⟩
    rintro p hp q hq rfl
    rw [List.mem_singleton] at hq
    exact hnew (hq ▸ hp)
  · intro p hp
    rcases List.mem_append.mp hp with hp | hp
    · exact h.files p hp
    · rw [List.mem_singleton.mp hp]
      exact ⟨hanchor, content, mode, hget⟩

/-- On a walk every place reaches those after it. -/
theorem IsWalk.pairwise (h : IsWalk tree source top loading) :
    loading.Pairwise (Relation.TransGen (Includes tree source top)) :=
  List.isChain_iff_pairwise.mp (h.2.imp fun _ _ hedge => Relation.TransGen.single hedge)

/-- The last document of a walk is reached from the first. -/
theorem IsWalk.reaches {last : Path} (h : IsWalk tree source top (loading ++ [last])) :
    Reaches tree source top last := by
  have hhead := h.1
  have hpairwise := h.pairwise
  rw [List.pairwise_append] at hpairwise
  cases loading with
  | nil =>
    obtain rfl := Option.some.inj hhead
    exact Relation.ReflTransGen.refl
  | cons first rest =>
    obtain rfl := Option.some.inj hhead
    have hpath := hpairwise.2.2 first List.mem_cons_self last (List.mem_singleton_self last)
    exact hpath.to_reflTransGen

/-- A walk that comes back to a place on it has gone around a cycle. -/
theorem IsWalk.cycle {last : Path} (h : IsWalk tree source top (loading ++ [last]))
    (hmem : last ∈ loading) : Relation.TransGen (Includes tree source top) last last := by
  have hpairwise := h.pairwise
  rw [List.pairwise_append] at hpairwise
  exact hpairwise.2.2 last hmem last (List.mem_singleton_self last)

/-! ## How loading ends -/

/-- No endless walk starts from a place. -/
abbrev Ends (tree : FileTree) (source : Source) (top place : Path) : Prop :=
  Acc (fun next place => Includes tree source top place next) place

/-- A place from which no endless walk starts is on no cycle. -/
theorem Ends.not_cycle (h : Ends tree source top place) :
    ¬ Relation.TransGen (Includes tree source top) place place := by
  have hacc : Acc (Relation.TransGen fun next place => Includes tree source top place next) place :=
    h.transGen
  induction hacc with
  | intro place _ ih =>
    intro hcycle
    have hswap : Relation.TransGen (fun next place => Includes tree source top place next)
        place place := Relation.transGen_swap.mp hcycle
    exact ih place hswap (h.inv_of_transGen hswap) hcycle

/-- What loading a document comes to: a table, and then nothing endless starts from the document, or
the error with a walk from the first document that comes back to a place on it. -/
inductive Outcome (tree : FileTree) (source : Source) (top document : Path) :
    Except LoadError Value.Table → Prop
  | loaded (t : Value.Table)
      (h : ∀ place, LeadsTo tree document place → Ends tree source top place) :
      Outcome tree source top document (.ok t)
  | circular (before : List Path) (last : Path)
      (hwalk : IsWalk tree source top (before ++ [last])) (hmem : last ∈ before) :
      Outcome tree source top document (.error (.config (.circularInclude (before ++ [last]))))

/-- A document has an outcome when each document it includes has one. -/
theorem Outcome.of_each {own : Value.Table} {documents : List Path}
    {load : Path → Except LoadError Value.Table} (combine : List Value.Table → Value.Table)
    (hplace : ∀ other, LeadsTo tree document other → other = place)
    (hsaid : Says tree source top place own)
    (hdocuments : includes place.parent (Members.get? own source.includeName) = .ok documents)
    (heach : ∀ d ∈ documents, Outcome tree source top d (load d)) :
    Outcome tree source top document ((documents.mapM load).map combine) := by
  cases hresult : documents.mapM load with
  | ok included =>
    refine .loaded _ ?_
    intro other hother
    rw [hplace other hother]
    refine Acc.intro place ?_
    rintro next ⟨d, ⟨own', documents', hsaid', hdocuments', hd⟩, hnext⟩
    obtain rfl := hsaid.eq hsaid'
    rw [hdocuments] at hdocuments'
    obtain rfl := Except.ok.inj hdocuments'
    have heachOk := (mapM_eq_ok_iff load documents included).mp hresult
    obtain ⟨t, ht⟩ := (exists_forall₂_iff _ documents).mp ⟨included, heachOk⟩ d hd
    have hout := heach d hd
    rw [ht] at hout
    cases hout with
    | loaded _ hends => exact hends next hnext
  | error e =>
    obtain ⟨before, d, after, heq, -, hd⟩ := (mapM_eq_error_iff load documents e).mp hresult
    have hout := heach d (by rw [heq]; simp)
    rw [hd] at hout
    cases hout with
    | circular before last hwalk hmem => exact .circular before last hwalk hmem

/-- The loading of a document has an outcome, and a greater bound does not change its result. -/
def Settles (tree : FileTree) (source : Source) (top : Path) (left : Nat) (loading : List Path)
    (document : Path) : Prop :=
  Outcome tree source top document (loadFrom tree source left loading document) ∧
    ∀ more, loadFrom tree source (left + more) loading document =
      loadFrom tree source left loading document

/-- The loading of a document that is not being loaded yet settles when that of each document it
includes does, with this one on the way. -/
theorem settles_of_each {node : Node} {own : Value.Table} {documents : List Path}
    (hfound : find tree document = .ok (some (place, node))) (hnew : place ∉ loading)
    (hfirst : loading = [] ↔ place = top) (hsaid : Says tree source top place own)
    (hdocuments : includes place.parent (Members.get? own source.includeName) = .ok documents)
    (heach : ∀ d ∈ documents, Settles tree source top left (loading ++ [place]) d) :
    Settles tree source top (left + 1) loading document := by
  have hstep : ∀ n, loadFrom tree source (n + 1) loading document =
      (documents.mapM (loadFrom tree source n (loading ++ [place]))).map fun included =>
        merge (mergeAll included) (Members.erase own source.includeName) := fun n =>
    loadFrom_of_own hfound hnew hfirst hsaid hdocuments
  constructor
  · rw [hstep]
    exact Outcome.of_each _ (fun other hother => LeadsTo.eq hfound hother)
      hsaid hdocuments fun d hd => (heach d hd).1
  · intro more
    have hmore : left + 1 + more = left + more + 1 := by omega
    rw [hmore, hstep, hstep, mapM_congr fun d hd => (heach d hd).2 more]

/-- Below the first document loading settles, as long as the bound leaves room for every file. -/
theorem settles_of_isStack (hread : Readable tree source) (hlook : LooksUp tree source)
    (htop : LeadsTo tree source.document top) {last : Path}
    (hstack : IsStack tree source top loading) (hlast : loading.getLast? = some last)
    (hdeclared : Declares tree source top last document)
    (hleft : tree.root.count Node.isFile + 1 ≤ left + loading.length) :
    Settles tree source top left loading document := by
  induction left generalizing loading last document with
  | zero =>
    have hlength := hstack.length_le
    omega
  | succ left ih =>
    have hlastReached : Reaches tree source top last := by
      obtain ⟨init, hinit⟩ := List.getLast?_eq_some_iff.mp hlast
      have hwalk := hstack.walk
      rw [hinit] at hwalk
      exact hwalk.reaches
    obtain ⟨found, hfound⟩ :=
      find_ne_error (hlook.declared top last document htop hlastReached hdeclared)
    have hsucc : ∀ more, left + 1 + more = left + more + 1 := fun more => by omega
    cases found with
    | none =>
      refine ⟨?_, fun more => by rw [hsucc, loadFrom_of_missing hfound, loadFrom_of_missing hfound]⟩
      rw [loadFrom_of_missing hfound]
      exact .loaded [] fun place hplace => absurd hplace (not_leadsTo hfound place)
    | some pair =>
      obtain ⟨place, node⟩ := pair
      have hedge : Includes tree source top last place := ⟨document, hdeclared, node, hfound⟩
      have hwalk := hstack.walk.concat hlast hedge
      by_cases hmem : place ∈ loading
      · -- the document is being loaded: the way to it closes a cycle
        refine ⟨?_, fun more => by
          rw [hsucc, loadFrom_of_mem hfound hmem, loadFrom_of_mem hfound hmem]⟩
        rw [loadFrom_of_mem hfound hmem]
        exact .circular loading place hwalk hmem
      · obtain ⟨own, hsaid, hdeclaration⟩ := hread top place htop hwalk.reaches
        obtain ⟨documents, hdocuments⟩ :=
          exists_includes_of_isDeclaration place.parent hdeclaration
        have hnotTop : place ≠ top := by
          rintro rfl
          exact hmem hstack.top_mem
        have hnotFirst : loading ≠ [] := List.ne_nil_of_mem hstack.top_mem
        obtain ⟨content, mode, -, hget, -⟩ := id hsaid
        have hnext := hstack.concat hlast hedge hmem (find_eq_some hfound).1 hget
        have hroom : tree.root.count Node.isFile + 1 ≤ left + (loading ++ [place]).length := by
          rw [List.length_append, List.length_singleton]
          omega
        refine settles_of_each hfound hmem ⟨fun h => absurd h hnotFirst, fun h => absurd h hnotTop⟩
          hsaid hdocuments ?_
        intro d hd
        exact ih hnext (by simp) ⟨own, documents, hsaid, hdocuments, hd⟩ hroom

/-- Loading a source that leads to a document settles. -/
theorem settles_of_leadsTo (hread : Readable tree source) (hlook : LooksUp tree source)
    (htop : LeadsTo tree source.document top) :
    Settles tree source top (tree.root.count Node.isFile + 2) [] source.document := by
  obtain ⟨node, hfound⟩ := htop
  obtain ⟨own, hsaid, hdeclaration⟩ := hread top top ⟨node, hfound⟩ Relation.ReflTransGen.refl
  obtain ⟨documents, hdocuments⟩ := exists_includes_of_isDeclaration top.parent hdeclaration
  have hstack : IsStack tree source top [top] := by
    refine ⟨⟨rfl, List.isChain_singleton top⟩, List.nodup_singleton top, ?_⟩
    intro p hp
    rw [List.mem_singleton.mp hp]
    obtain ⟨content, mode, -, hget, -⟩ := hsaid
    exact ⟨(find_eq_some hfound).1, content, mode, hget⟩
  refine settles_of_each hfound List.not_mem_nil ⟨fun _ => rfl, fun _ => rfl⟩ hsaid hdocuments ?_
  intro d hd
  refine settles_of_isStack hread hlook ⟨node, hfound⟩ hstack rfl
    ⟨own, documents, hsaid, hdocuments, hd⟩ ?_
  simp

/-! ## Cycles are found, and nothing else is taken for one -/

/-- No endless walk starts from what is reached from a place where none starts. -/
theorem Ends.of_reaches {first place : Path} (h : Ends tree source top first)
    (hreach : Relation.ReflTransGen (Includes tree source top) first place) :
    Ends tree source top place := by
  induction hreach with
  | refl => exact h
  | tail _ hedge ih => exact ih.inv hedge

/-- A source is loaded exactly when it has no cycle. -/
theorem Outcome.ok_iff {result : Except LoadError Value.Table}
    (h : Outcome tree source top source.document result)
    (htop : LeadsTo tree source.document top)
    (honly : ∀ other, LeadsTo tree source.document other → other = top) :
    (∃ t, result = .ok t) ↔ ¬ HasCycle tree source := by
  constructor
  · rintro ⟨t, rfl⟩ ⟨other, place, hother, hreach, hcycle⟩
    rw [honly other hother] at hreach hcycle
    cases h with
    | loaded _ hends => exact ((hends top htop).of_reaches hreach).not_cycle hcycle
  · intro hacyclic
    cases h with
    | loaded t _ => exact ⟨t, rfl⟩
    | circular before last hwalk hmem =>
      exact absurd ⟨top, last, htop, hwalk.reaches, hwalk.cycle hmem⟩ hacyclic

/-- A source is circular exactly when it is not loaded. -/
theorem Outcome.circular_iff {document : Path} {result : Except LoadError Value.Table}
    (h : Outcome tree source top document result) :
    (∃ chain, result = .error (.config (.circularInclude chain))) ↔ ¬ ∃ t, result = .ok t := by
  cases h with
  | loaded t _ => simp
  | circular before last _ _ => simp

/-- A source without a document, or with one from which loading settles. -/
theorem load_missing_or_settles (hread : Readable tree source) (hlook : LooksUp tree source) :
    find tree source.document = .ok none ∨ ∃ top, LeadsTo tree source.document top ∧
      Settles tree source top (tree.root.count Node.isFile + 2) [] source.document := by
  obtain ⟨found, hfound⟩ := find_ne_error hlook.document
  cases found with
  | none => exact Or.inl hfound
  | some pair =>
    have htop : LeadsTo tree source.document pair.1 := ⟨pair.2, hfound⟩
    exact Or.inr ⟨pair.1, htop, settles_of_leadsTo hread hlook htop⟩

/-- A source is loaded exactly when it has no cycle. -/
theorem exists_load_iff (hread : Readable tree source) (hlook : LooksUp tree source) :
    (∃ t, load tree source = .ok t) ↔ ¬ HasCycle tree source := by
  rcases load_missing_or_settles hread hlook with hnone | ⟨top, ⟨node, hfound⟩, hout, -⟩
  · have hload : load tree source = .ok [] := loadFrom_of_missing hnone
    refine ⟨?_, fun _ => ⟨[], hload⟩⟩
    rintro - ⟨first, -, hfirst, -⟩
    exact not_leadsTo hnone first hfirst
  · exact hout.ok_iff ⟨node, hfound⟩ fun other hother => LeadsTo.eq hfound hother

/-- Loading a source comes to an end, and to the same one with any greater bound. It fails with a
circular include exactly when a document that can be reached reaches itself again, and succeeds
otherwise, however often a document is included. The places it names are a walk from the first
document on that comes back to one of them. -/
theorem load_circular_iff (hread : Readable tree source) (hlook : LooksUp tree source) :
    (∀ more, loadFrom tree source (tree.root.count Node.isFile + 2 + more) [] source.document =
      load tree source) ∧
    ((∃ chain, load tree source = .error (.config (.circularInclude chain))) ↔
      HasCycle tree source) ∧
    ((∃ t, load tree source = .ok t) ↔ ¬ HasCycle tree source) ∧
    ∀ chain, load tree source = .error (.config (.circularInclude chain)) →
      (ConfigError.circularInclude chain).message =
        "Circular include detected: " ++ " -> ".intercalate (chain.map Path.toText) ∧
      ∃ first before last, LeadsTo tree source.document first ∧ chain = before ++ [last] ∧
        IsWalk tree source first chain ∧ last ∈ before := by
  have hok := exists_load_iff hread hlook
  rcases load_missing_or_settles hread hlook with hnone | ⟨top, htop, hout, hmore⟩
  · have hload : load tree source = .ok [] := loadFrom_of_missing hnone
    have hacyclic : ¬ HasCycle tree source := hok.mp ⟨[], hload⟩
    refine ⟨fun more => ?_, ?_, hok, fun chain h => ?_⟩
    · have hsucc : tree.root.count Node.isFile + 2 + more =
          tree.root.count Node.isFile + 1 + more + 1 := by omega
      rw [hload, hsucc, loadFrom_of_missing hnone]
    · simp [hload, hacyclic]
    · rw [hload] at h
      cases h
  · change Outcome tree source top source.document (load tree source) at hout
    refine ⟨hmore, ?_, hok, fun chain h => ?_⟩
    · rw [hout.circular_iff, hok, not_not]
    · rw [h] at hout
      cases hout with
      | circular before last hwalk hmem =>
        exact ⟨rfl, top, before, last, htop, rfl, hwalk, hmem⟩

/-- Two documents that include each other. -/
def mutualTree : FileTree :=
  documentTree [("a.toml", "include='b.toml'"), ("b.toml", "include='a.toml'")]

/-- The source that starts from `a.toml`. -/
def firstSource : Source := { document := ⟨.here, ["a.toml"]⟩, scope := .whole }

/-- The graph of the two documents that include each other is closed. -/
theorem closed_mutualTree : Closed mutualTree firstSource ⟨.root, ["a.toml"]⟩
    [(⟨.root, ["a.toml"]⟩, [⟨.root, ["b.toml"]⟩]),
      (⟨.root, ["b.toml"]⟩, [⟨.root, ["a.toml"]⟩])] := by
  have ha : Says mutualTree firstSource ⟨.root, ["a.toml"]⟩ ⟨.root, ["a.toml"]⟩
      [("include", .text "b.toml")] :=
    Says.of_text rfl
      (Toml.read_of_assignments (by decide) (by rw [Toml.statements_ofList]; rfl))
  have hb : Says mutualTree firstSource ⟨.root, ["a.toml"]⟩ ⟨.root, ["b.toml"]⟩
      [("include", .text "a.toml")] :=
    Says.of_text rfl
      (Toml.read_of_assignments (by decide) (by rw [Toml.statements_ofList]; rfl))
  refine ⟨?_, by decide +kernel⟩
  intro node hnode
  simp only [List.mem_cons, List.not_mem_nil, or_false] at hnode
  rcases hnode with rfl | rfl
  · exact ⟨_, ha, rfl⟩
  · exact ⟨_, hb, rfl⟩

/-- Of two documents that include each other the loading ends in the circle. -/
theorem load_circular_iff_mutual :
    Readable mutualTree firstSource ∧ LooksUp mutualTree firstSource ∧
      HasCycle mutualTree firstSource ∧
      ∃ chain, load mutualTree firstSource = .error (.config (.circularInclude chain)) := by
  have hfound : find mutualTree firstSource.document =
      .ok (some (⟨.root, ["a.toml"]⟩, .file "include='b.toml'".toUTF8 0o644)) := rfl
  have hread := closed_mutualTree.readable List.mem_cons_self hfound
  have hlook := closed_mutualTree.looksUp List.mem_cons_self hfound (by decide +kernel)
  have hthere : Includes mutualTree firstSource ⟨.root, ["a.toml"]⟩ ⟨.root, ["a.toml"]⟩
      ⟨.root, ["b.toml"]⟩ :=
    closed_mutualTree.includes List.mem_cons_self List.mem_cons_self rfl
  have hback : Includes mutualTree firstSource ⟨.root, ["a.toml"]⟩ ⟨.root, ["b.toml"]⟩
      ⟨.root, ["a.toml"]⟩ :=
    closed_mutualTree.includes (List.mem_cons_of_mem _ List.mem_cons_self) List.mem_cons_self rfl
  have hcycle : HasCycle mutualTree firstSource :=
    ⟨⟨.root, ["a.toml"]⟩, ⟨.root, ["a.toml"]⟩, ⟨_, hfound⟩, .refl, .tail (.single hthere) hback⟩
  exact ⟨hread, hlook, hcycle, (load_circular_iff hread hlook).2.1.mpr hcycle⟩

/-- A document that includes a path that is too long to be looked up, and then itself. -/
def longIncludeText : List Char :=
  ['i', 'n', 'c', 'l', 'u', 'd', 'e', '=', '[', '\x27'] ++ longName ++
    ['\x27', ',', '\x27', 'a', '.', 't', 'o', 'm', 'l', '\x27', ']']

def longIncludeTree : FileTree := documentTree [("a.toml", String.ofList longIncludeText)]

/-- The document with the long name is not looked for in any tree. -/
theorem find_longName (documents : List (String × String)) :
    find (documentTree documents) ⟨.root, [String.ofList longName]⟩ =
      .error (.file .nameTooLong) :=
  find_of_tooLong (locate_of_long (by decide +kernel) (by decide +kernel))

/-- The document with the long name has no place in any tree. -/
theorem placeOf?_longName (documents : List (String × String)) :
    placeOf? (documentTree documents) ⟨.root, [String.ofList longName]⟩ = none :=
  placeOf?_of_error (find_longName documents)

/-- The long name below the root is the path of that name. -/
theorem join_longName :
    (⟨.root, []⟩ : Path).join (Path.ofText (String.ofList longName)) =
      ⟨.root, [String.ofList longName]⟩ := by
  rw [ofText_name (by decide +kernel) (by decide +kernel) (by decide +kernel)]
  rfl

set_option maxRecDepth 10000 in
/-- The document with the long include says its include list. -/
theorem says_longIncludeTree : Says longIncludeTree firstSource ⟨.root, ["a.toml"]⟩
    ⟨.root, ["a.toml"]⟩ [("include", .list [.text (String.ofList longName), .text "a.toml"])] :=
  Says.of_text rfl
      (Toml.read_of_assignments (by decide) (by rw [Toml.statements_ofList]; rfl))

/-- The long include is read as a path beside the document. -/
theorem includes_longIncludeTree :
    includes ⟨.root, []⟩ (some (.list [.text (String.ofList longName), .text "a.toml"])) =
      .ok [⟨.root, [String.ofList longName]⟩, ⟨.root, ["a.toml"]⟩] := by
  have hself : (⟨.root, []⟩ : Path).join (Path.ofText "a.toml") = ⟨.root, ["a.toml"]⟩ := rfl
  simp only [includes, List.mapM_cons, List.mapM_nil, join_longName, hself]
  rfl

/-- The graph of the document with the long include is closed. -/
theorem closed_longIncludeTree : Closed longIncludeTree firstSource ⟨.root, ["a.toml"]⟩
    [(⟨.root, ["a.toml"]⟩, [⟨.root, [String.ofList longName]⟩, ⟨.root, ["a.toml"]⟩])] := by
  constructor
  · intro node hnode
    rw [List.mem_singleton.mp hnode]
    exact ⟨_, says_longIncludeTree, includes_longIncludeTree⟩
  · intro node hnode document hdocument next hnext
    rw [List.mem_singleton.mp hnode] at hdocument
    simp only [List.mem_cons, List.not_mem_nil, or_false] at hdocument
    rcases hdocument with rfl | rfl
    · rw [longIncludeTree, placeOf?_longName] at hnext
      cases hnext
    · rw [LeadsTo.eq rfl (mem_placeOf?_iff.mp hnext)]
      exact List.mem_cons_self

/-- An include that is too long to be looked up ends the loading before a cycle is found. -/
theorem longInclude_hides_cycle :
    Readable longIncludeTree firstSource ∧ HasCycle longIncludeTree firstSource ∧
      load longIncludeTree firstSource = .error (.file .nameTooLong) := by
  have hfound : find longIncludeTree firstSource.document =
      .ok (some (⟨.root, ["a.toml"]⟩, .file (String.ofList longIncludeText).toUTF8 0o644)) := rfl
  have hself : Includes longIncludeTree firstSource ⟨.root, ["a.toml"]⟩ ⟨.root, ["a.toml"]⟩
      ⟨.root, ["a.toml"]⟩ :=
    closed_longIncludeTree.includes List.mem_cons_self
      (List.mem_cons_of_mem _ List.mem_cons_self) hfound
  refine ⟨closed_longIncludeTree.readable List.mem_cons_self hfound,
    ⟨⟨.root, ["a.toml"]⟩, ⟨.root, ["a.toml"]⟩, ⟨_, hfound⟩, .refl, .single hself⟩, ?_⟩
  have hlong : find longIncludeTree ⟨.root, [String.ofList longName]⟩ =
      .error (.file .nameTooLong) := find_longName _
  unfold load
  rw [loadFrom_of_own hfound List.not_mem_nil ⟨fun _ => rfl, fun _ => rfl⟩ says_longIncludeTree
    includes_longIncludeTree, List.mapM_cons, loadFrom_of_error hlong]
  rfl

end LintGateway.Settings.Source
