import LintGateway.Proofs.Settings.Includes
import LintGateway.Proofs.Settings.Merge
import LintGateway.Proofs.Toml.Names
import LintGateway.Settings.Load

/-!
# The layers of settings

Loading merges as it goes: what a document includes first, each of that in turn, and then the
document itself. When no value of any document is a table, the result is the same as writing the
documents one after the other in this order (`Walk`), a document as often as it is reached, and
taking the last value under each name. The walk is unique; what it visits stands in the order of a
traversal of the include graph that comes to a document after everything the document includes.

The settings are then read from the merged table, so they depend on the documents only through these
values (`load_layers`).
-/

set_option autoImplicit false

namespace LintGateway.Settings

namespace Source

/-- The documents that loading a document comes to, in the order in which they are merged, each
without the member that says what it includes: nothing when the path leads nowhere, otherwise what
its includes come to, in their order, and then the document itself. -/
inductive Walk (tree : FileTree) (source : Source) (top : Path) :
    Path → List Value.Table → Prop
  | missing {document : Path} (h : find tree document = .ok none) :
      Walk tree source top document []
  | document {document place : Path} {own : Value.Table} {documents : List Path}
      {walks : List (List Value.Table)} (hleads : LeadsTo tree document place)
      (hsaid : Says tree source top place own)
      (hdocuments : includes place.parent (Members.get? own source.includeName) = .ok documents)
      (hwalks : List.Forall₂ (Walk tree source top) documents walks) :
      Walk tree source top document (walks.flatten ++ [Members.erase own source.includeName])

/-- The layers of a source: those of the walk from its first document. -/
def PostOrder (tree : FileTree) (source : Source) (layers : List Value.Table) : Prop :=
  ∃ top, (∀ place, LeadsTo tree source.document place → place = top) ∧
    Walk tree source top source.document layers

/-- What is said of its settings by each document that can be reached has no table as a value. -/
def SaysFlat (tree : FileTree) (source : Source) : Prop :=
  ∀ top place own, LeadsTo tree source.document top → Reaches tree source top place →
    Says tree source top place own → IsFlat own

/-- The documents of a source can all be read and looked up, no document includes itself again, and
no value in them is a table. -/
structure IsLayered (tree : FileTree) (source : Source) : Prop where
  readable : Readable tree source
  looksUp : LooksUp tree source
  acyclic : ¬ HasCycle tree source
  flat : SaysFlat tree source

variable {tree : FileTree} {source : Source} {top : Path}

/-! ## What one document says -/

/-- A document that is parsed gives a name once in each of its tables. -/
theorem wellNamed_of_parse {document : Path} {content : ByteArray} {whole : Value.Table}
    (h : parse document content = .ok whole) : Value.WellNamed (.record whole) := by
  unfold parse at h
  split at h
  · cases h
  · rename_i s _
    cases hread : Toml.read s with
    | error e =>
      rw [hread] at h
      cases e <;> cases h
    | ok t =>
      rw [hread] at h
      cases h
      exact Toml.wellNamed_of_read hread

/-- The table of a member of a well-named table is well named. -/
theorem wellNamed_memberTable (name : String) {t : Value.Table}
    (h : Value.WellNamed (.record t)) : Value.WellNamed (.record (memberTable name t)) := by
  unfold memberTable
  split
  · rename_i inner hget
    exact h.of_get? hget
  · exact Value.wellNamed_empty

/-- What a document says has a name once each. -/
theorem Says.nodup {place : Path} {own : Value.Table} (h : Says tree source top place own) :
    (Members.names own).Nodup := by
  obtain ⟨content, mode, whole, -, hparse, rfl⟩ := h
  have hwhole := wellNamed_of_parse hparse
  split
  · unfold select
    split
    · exact hwhole.nodup
    · exact (wellNamed_memberTable _ (wellNamed_memberTable _ hwhole)).nodup
  · exact hwhole.nodup

/-- Names that are given once are so after a member was taken out. -/
theorem nodup_erase {t : Value.Table} (h : (Members.names t).Nodup) (name : String) :
    (Members.names (Members.erase t name)).Nodup :=
  h.sublist (List.filter_sublist.map Prod.fst)

/-- A member that was taken out is not found. -/
theorem get?_erase_self (t : Value.Table) (name : String) :
    Members.get? (Members.erase t name) name = none := by
  rw [Members.get?_eq_none_iff]
  intro hmem
  obtain ⟨m, hm, rfl⟩ := List.mem_map.mp hmem
  have hne := (List.mem_filter.mp hm).2
  simp at hne

/-! ## Loading follows the walk -/

section Follows

variable {α : Type} {walk : α → List Value.Table → Prop} {includeName : String}

/-- A table was merged along the one walk that something has, and no layer of the walk has the
member that says what is included. -/
structure Follows (walk : α → List Value.Table → Prop) (includeName : String) (a : α)
    (t : Value.Table) (layers : List Value.Table) : Prop where
  holds : walk a layers
  unique : ∀ others, walk a others → others = layers
  standsFor : StandsFor t layers
  own : ∀ layer ∈ layers, Members.get? layer includeName = none

/-- Documents with a walk each have them one by one, and no others. -/
theorem exists_walks {as : List α} {ts : List Value.Table}
    (h : List.Forall₂ (fun a t => ∃ layers, Follows walk includeName a t layers) as ts) :
    ∃ walks, List.Forall₂ walk as walks ∧
      (∀ others, List.Forall₂ walk as others → others = walks) ∧
      List.Forall₂ StandsFor ts walks ∧
      ∀ layer ∈ walks.flatten, Members.get? layer includeName = none := by
  induction h with
  | nil =>
    refine ⟨[], .nil, ?_, .nil, by simp⟩
    intro others hothers
    cases hothers
    rfl
  | cons hfirst _ ih =>
    obtain ⟨layers, hlayers⟩ := hfirst
    obtain ⟨walks, hwalks, hunique, hstands, hown⟩ := ih
    refine ⟨layers :: walks, .cons hlayers.holds hwalks, ?_, .cons hlayers.standsFor hstands, ?_⟩
    · intro others hothers
      cases hothers with
      | cons hother hrest => rw [hlayers.unique _ hother, hunique _ hrest]
    · intro layer hlayer
      rw [List.flatten_cons] at hlayer
      rcases List.mem_append.mp hlayer with hlayer | hlayer
      · exact hlayers.own layer hlayer
      · exact hown layer hlayer

end Follows

/-- A document whose includes follow their walks follows its own. -/
theorem exists_follows_of_each {document place : Path} {node : Node} {own : Value.Table}
    {documents : List Path} {included : List Value.Table}
    (hfound : find tree document = .ok (some (place, node)))
    (hsaid : Says tree source top place own) (hflat : IsFlat own)
    (hdocuments : includes place.parent (Members.get? own source.includeName) = .ok documents)
    (heach : List.Forall₂
      (fun d t => ∃ layers, Follows (Walk tree source top) source.includeName d t layers)
      documents included) :
    ∃ layers, Follows (Walk tree source top) source.includeName document
      (merge (mergeAll included) (Members.erase own source.includeName)) layers := by
  obtain ⟨walks, hwalks, hunique, hstands, hown⟩ := exists_walks heach
  have hself : StandsFor (Members.erase own source.includeName)
      [Members.erase own source.includeName] :=
    .self (hflat.erase _) (nodup_erase hsaid.nodup _)
  refine ⟨walks.flatten ++ [Members.erase own source.includeName],
    .document ⟨node, hfound⟩ hsaid hdocuments hwalks, ?_,
    (StandsFor.mergeAll hstands).merge hself, ?_⟩
  · intro others hothers
    cases hothers with
    | missing hnone =>
      rw [hfound] at hnone
      cases hnone
    | document hleads hsaid' hdocuments' hwalks' =>
      obtain rfl := LeadsTo.eq hfound hleads
      obtain rfl := hsaid.eq hsaid'
      obtain rfl := Except.ok.inj (hdocuments.symm.trans hdocuments')
      rw [hunique _ hwalks']
  · intro layer hlayer
    rcases List.mem_append.mp hlayer with hlayer | hlayer
    · exact hown layer hlayer
    · rw [List.mem_singleton.mp hlayer]
      exact get?_erase_self own _

/-- A document that was loaded follows a walk. -/
theorem exists_follows (hread : Readable tree source) (hflat : SaysFlat tree source)
    (htop : LeadsTo tree source.document top) {left : Nat} {loading : List Path}
    {document : Path} {t : Value.Table}
    (hreach : ∀ place, LeadsTo tree document place → Reaches tree source top place)
    (hbelow : IsBelow tree top loading document)
    (h : loadFrom tree source left loading document = .ok t) :
    ∃ layers, Follows (Walk tree source top) source.includeName document t layers := by
  -- On the bound. Whatever is loaded stays below the first document, by `hbelow`, so the table that a
  -- document holds is the one that it says.
  induction left generalizing loading document t with
  | zero => cases h
  | succ left ih =>
    cases hfind : find tree document with
    | error e =>
      rw [loadFrom_of_error hfind] at h
      cases h
    | ok found =>
      cases found with
      | none =>
        rw [loadFrom_of_missing hfind] at h
        cases h
        refine ⟨[], .missing hfind, ?_, .empty, by simp⟩
        intro others hothers
        cases hothers with
        | missing _ => rfl
        | document hleads _ _ _ => exact absurd hleads (not_leadsTo hfind _)
      | some pair =>
        obtain ⟨place, node⟩ := pair
        by_cases hmem : place ∈ loading
        · rw [loadFrom_of_mem hfind hmem] at h
          cases h
        · have hplace := hreach place ⟨node, hfind⟩
          obtain ⟨own, hsaid, hdeclaration⟩ := hread top place htop hplace
          obtain ⟨documents, hdocuments⟩ :=
            exists_includes_of_isDeclaration place.parent hdeclaration
          have hfirst := hbelow.first_iff ⟨node, hfind⟩ hmem
          rw [loadFrom_of_own hfind hmem hfirst hsaid hdocuments, map_eq_ok_iff] at h
          obtain ⟨included, hincluded, rfl⟩ := h
          have hown := hflat top place own htop hplace hsaid
          refine exists_follows_of_each hfind hsaid hown hdocuments ?_
          refine forall₂_imp_of_mem ((mapM_eq_ok_iff _ _ _).mp hincluded) fun d hd t _ ht => ?_
          refine ih ?_ (hbelow.next ⟨node, hfind⟩ d) ht
          exact fun next hnext =>
            hplace.tail ⟨d, ⟨own, documents, hsaid, hdocuments, hd⟩, hnext⟩

/-- A source without cycles is loaded, and what it comes to stands for the layers of its walk. -/
theorem exists_load_follows (h : IsLayered tree source) :
    ∃ t, load tree source = .ok t ∧
      ∃ layers, Follows (PostOrder tree) source.includeName source t layers := by
  obtain ⟨t, ht⟩ := (exists_load_iff h.readable h.looksUp).mpr h.acyclic
  obtain ⟨found, hfound⟩ := find_ne_error h.looksUp.document
  cases found with
  | none =>
    have hload : load tree source = .ok [] := loadFrom_of_missing hfound
    have hnowhere := not_leadsTo hfound
    refine ⟨[], hload, [], ⟨⟨.root, []⟩, fun place h => absurd h (hnowhere place),
      .missing hfound⟩, ?_, .empty, by simp⟩
    rintro others ⟨top, -, hwalk⟩
    cases hwalk with
    | missing _ => rfl
    | document hleads _ _ _ => exact absurd hleads (hnowhere _)
  | some pair =>
    obtain ⟨place, node⟩ := pair
    have hleads : LeadsTo tree source.document place := ⟨node, hfound⟩
    have honly : ∀ other, LeadsTo tree source.document other → other = place :=
      fun other hother => LeadsTo.eq hfound hother
    have hreach : ∀ other, LeadsTo tree source.document other →
        Reaches tree source place other := by
      intro other hother
      rw [honly other hother]
      exact .refl
    obtain ⟨layers, hfollows⟩ :=
      exists_follows h.readable h.flat hleads hreach (Or.inl ⟨rfl, honly⟩) ht
    refine ⟨t, ht, layers, ⟨place, honly, hfollows.holds⟩, ?_, hfollows.standsFor, hfollows.own⟩
    rintro others ⟨top, htop, hwalk⟩
    obtain rfl := htop place hleads
    exact hfollows.unique others hwalk

/-- A closed graph of flat documents says flat tables only. -/
theorem Closed.saysFlat {node : Node} {documents : List Path} {graph : List (Path × List Path)}
    (h : Closed tree source top graph) (htop : (top, documents) ∈ graph)
    (hfound : find tree source.document = .ok (some (top, node)))
    (hflat : ∀ node ∈ graph, ∃ own, Says tree source top node.1 own ∧ IsFlat own) :
    SaysFlat tree source := by
  intro other place own hother hreach hsaid
  rw [LeadsTo.eq hfound hother] at hreach hsaid
  obtain ⟨others, hmem⟩ := h.mem_of_reaches htop hreach
  obtain ⟨own', hsaid', hown⟩ := hflat _ hmem
  rwa [hsaid.eq hsaid']

/-- A source without a document has no layers and nothing amiss. -/
theorem of_missing (h : find tree source.document = .ok none) :
    Readable tree source ∧ LooksUp tree source ∧ ¬ HasCycle tree source ∧ SaysFlat tree source := by
  have hnowhere := not_leadsTo h
  refine ⟨fun place _ hplace => absurd hplace (hnowhere place), ⟨?_, ?_⟩, ?_, ?_⟩
  · intro hlong
    simp only [find, hlong] at h
    cases h
  · exact fun place _ _ hplace => absurd hplace (hnowhere place)
  · rintro ⟨place, -, hplace, -⟩
    exact hnowhere place hplace
  · exact fun place _ _ hplace => absurd hplace (hnowhere place)

end Source

/-! ## The settings of a project -/

/-- What a member of settings is: the fallback where the table does not have the name, and otherwise
what is read from the value there. -/
def Gives {α : Type} (t : Value.Table) (name : String) (fallback : α)
    (read : Value → Schema.Checked α) (a : α) : Prop :=
  (Members.get? t name = none ∧ a = fallback) ∨
    ∃ v, Members.get? t name = some v ∧ read v = .sound a

/-- The value under a name is not a valid one. -/
def Refuses {α : Type} (t : Value.Table) (name : String) (read : Value → Schema.Checked α) :
    Prop :=
  ∃ v, Members.get? t name = some v ∧ ∀ a, read v ≠ .sound a

/-- A table describes these settings: it has no names but those of settings, and each of these gives
its member. -/
structure Describes (t : Value.Table) (s : Settings) : Prop where
  known : ∀ name ∈ Members.names t, name ∈ memberNames
  fileSuffixes : Gives t "file_suffixes" standard.fileSuffixes readSuffixes s.fileSuffixes
  reportPaths : Gives t "report_paths" standard.reportPaths readPaths s.reportPaths
  timeout :
    Gives t "timeout" standard.timeout (Schema.readOptional Schema.readDuration) s.timeout
  acceptNonzeroExit :
    Gives t "accept_nonzero_exit" standard.acceptNonzeroExit Schema.readBool s.acceptNonzeroExit

/-- A table has a name that settings do not have, or a value that is not valid. -/
inductive IsInvalid (t : Value.Table) : Prop where
  | unknown (name : String) (h : name ∈ Members.names t) (hname : name ∉ memberNames)
  | fileSuffixes (h : Refuses t "file_suffixes" readSuffixes)
  | reportPaths (h : Refuses t "report_paths" readPaths)
  | timeout (h : Refuses t "timeout" (Schema.readOptional Schema.readDuration))
  | acceptNonzeroExit (h : Refuses t "accept_nonzero_exit" Schema.readBool)

/-- A refused setting is not given. -/
theorem Refuses.not_gives {α : Type} {t : Value.Table} {name : String} {fallback a : α}
    {read : Value → Schema.Checked α} (h : Refuses t name read) :
    ¬ Gives t name fallback read a := by
  obtain ⟨v, hv, hbad⟩ := h
  rintro (⟨hnone, -⟩ | ⟨w, hw, hgood⟩)
  · rw [hv] at hnone
    cases hnone
  · rw [hv] at hw
    exact hbad a (Option.some.inj hw ▸ hgood)

/-- A setting that is not refused is given. -/
theorem exists_gives {α : Type} {t : Value.Table} {name : String} (fallback : α)
    {read : Value → Schema.Checked α} (h : ¬ Refuses t name read) :
    ∃ a, Gives t name fallback read a := by
  cases hget : Members.get? t name with
  | none => exact ⟨fallback, Or.inl ⟨hget, rfl⟩⟩
  | some v =>
    by_contra hno
    exact h ⟨v, hget, fun a ha => hno ⟨a, Or.inr ⟨v, hget, ha⟩⟩⟩

/-- A table describes settings unless something in it is invalid. -/
theorem isInvalid_iff (t : Value.Table) : IsInvalid t ↔ ¬ ∃ s, Describes t s := by
  constructor
  · rintro hbad ⟨s, hs⟩
    cases hbad with
    | unknown name h hname => exact hname (hs.known name h)
    | fileSuffixes h => exact h.not_gives hs.fileSuffixes
    | reportPaths h => exact h.not_gives hs.reportPaths
    | timeout h => exact h.not_gives hs.timeout
    | acceptNonzeroExit h => exact h.not_gives hs.acceptNonzeroExit
  · intro hno
    by_contra hgood
    obtain ⟨suffixes, hsuffixes⟩ :=
      exists_gives standard.fileSuffixes fun h => hgood (.fileSuffixes h)
    obtain ⟨paths, hpaths⟩ := exists_gives standard.reportPaths fun h => hgood (.reportPaths h)
    obtain ⟨timeout, htimeout⟩ := exists_gives standard.timeout fun h => hgood (.timeout h)
    obtain ⟨accept, haccept⟩ :=
      exists_gives standard.acceptNonzeroExit fun h => hgood (.acceptNonzeroExit h)
    refine hno ⟨⟨suffixes, paths, timeout, accept⟩, ?_, hsuffixes, hpaths, htimeout, haccept⟩
    intro name h
    by_contra hname
    exact hgood (.unknown name h hname)

/-- A table is read as the settings that it describes. -/
theorem readTable_eq_sound_iff (t : Value.Table) (s : Settings) :
    readTable t = .sound s ↔ Describes t s := by
  unfold readTable
  simp only [Schema.Checked.seq_eq_sound_iff, Schema.Checked.map_eq_sound_iff,
    Schema.optional_eq_sound_iff]
  constructor
  · rintro ⟨_, _, ⟨_, accept, ⟨_, timeout, ⟨_, paths, ⟨suffixes, hsuffixes, rfl⟩, hpaths, rfl⟩,
      htimeout, rfl⟩, haccept, rfl⟩, hknown, rfl⟩
    exact ⟨(Schema.onlyKnown_eq_sound_iff _ _).mp hknown, hsuffixes, hpaths, htimeout, haccept⟩
  · rintro ⟨hknown, hsuffixes, hpaths, htimeout, haccept⟩
    have hpassed := (Schema.onlyKnown_eq_sound_iff _ _).mpr hknown
    exact ⟨_, _, ⟨_, _, ⟨_, _, ⟨_, _, ⟨_, hsuffixes, rfl⟩, hpaths, rfl⟩, htimeout, rfl⟩, haccept,
      rfl⟩, hpassed, rfl⟩

section Load

variable {tree : FileTree} {root : Path} {overrides merged : Value.Table}

/-- The settings are those that the merged table describes, anchored at the root. -/
theorem load_eq_ok_iff (h : table tree root overrides = .ok merged) (s : Settings) :
    load tree root overrides = .ok s ↔ ∃ said, Describes merged said ∧ s = said.anchor root := by
  simp only [← readTable_eq_sound_iff]
  unfold load
  rw [h]
  cases hread : readTable merged with
  | sound said => simp [hread, eq_comm]
  | faulty first others => simp [hread]

/-- An invalid merged table is an error of configuration, and nothing else in it is one. -/
theorem load_eq_error_iff (h : table tree root overrides = .ok merged) :
    (∃ e, load tree root overrides = .error (.config e)) ↔ IsInvalid merged := by
  simp only [isInvalid_iff, ← readTable_eq_sound_iff]
  unfold load
  rw [h]
  cases hread : readTable merged with
  | sound said => simp [hread]
  | faulty first others => simp [hread]

/-- Layers that cannot be merged give no settings. -/
theorem load_of_table_error {e : LoadError} (h : table tree root overrides = .error e) :
    load tree root overrides = .error e := by
  unfold load
  rw [h]

end Load

section Project

variable {tree : FileTree} {root : Path} {overrides : Value.Table}

/-- The layers are merged to a table that stands for the walks of the sources in order. -/
theorem exists_table_standsFor (h : ∀ source ∈ sources root, Source.IsLayered tree source)
    (hoverrides : IsFlat overrides) (hnames : (Members.names overrides).Nodup) :
    ∃ walks merged, List.Forall₂ (Source.PostOrder tree) (sources root) walks ∧
      (∀ others, List.Forall₂ (Source.PostOrder tree) (sources root) others → others = walks) ∧
      (∀ layer ∈ walks.flatten, Members.get? layer "include" = none) ∧
      table tree root overrides = .ok merged ∧
      StandsFor merged (walks.flatten ++ [overrides]) := by
  have hname : ∀ source ∈ sources root, source.includeName = "include" := by
    simp [sources]
  have heach : ∀ source ∈ sources root, ∃ t, Source.load tree source = .ok t ∧
      ∃ layers, Source.Follows (Source.PostOrder tree) "include" source t layers := by
    intro source hmem
    have hsource := Source.exists_load_follows (h source hmem)
    rwa [hname source hmem] at hsource
  obtain ⟨ts, hts⟩ := (exists_forall₂_iff _ _).mpr heach
  obtain ⟨walks, hwalks, hunique, hstands, hown⟩ :=
    Source.exists_walks (hts.imp fun _ _ h => h.2)
  have hlayers : (sources root).mapM (Source.load tree) = .ok ts :=
    (mapM_eq_ok_iff _ _ _).mpr (hts.imp fun _ _ h => h.1)
  refine ⟨walks, mergeAll (ts ++ [overrides]), hwalks, hunique, hown, ?_, ?_⟩
  · unfold table
    rw [hlayers]
    rfl
  · have hall := StandsFor.mergeAll
      (List.rel_append hstands (.cons (.self hoverrides hnames) .nil))
    rwa [List.flatten_append, List.flatten_singleton] at hall

/-- The settings of a project whose documents are well formed, without cycles and without tables as
values. What is read has under each name what the last document with the name says: first those of
one source and then those of the other, each after all that it includes, and the caller last. No
document passes on what it includes. The settings are what the merged table describes, with the
standard value for each member it does not have; loading fails exactly when the table has a name
that settings do not have or a value that is not valid, and then with a configuration error. -/
theorem load_layers (h : ∀ source ∈ sources root, Source.IsLayered tree source)
    (hoverrides : IsFlat overrides) (hnames : (Members.names overrides).Nodup) :
    ∃ walks merged, List.Forall₂ (Source.PostOrder tree) (sources root) walks ∧
      (∀ others, List.Forall₂ (Source.PostOrder tree) (sources root) others → others = walks) ∧
      (∀ layer ∈ walks.flatten, Members.get? layer "include" = none) ∧
      table tree root overrides = .ok merged ∧
      (∀ name, Members.get? merged name = lastValue name (walks.flatten ++ [overrides])) ∧
      (∀ s, load tree root overrides = .ok s ↔
        ∃ said, Describes merged said ∧ s = said.anchor root) ∧
      ((∃ e, load tree root overrides = .error (.config e)) ↔ IsInvalid merged) ∧
      ∀ e, load tree root overrides = .error e →
        ∃ faults, e = .config (.invalidSettings faults) := by
  obtain ⟨walks, merged, hwalks, hunique, hown, htable, hstands⟩ :=
    exists_table_standsFor h hoverrides hnames
  refine ⟨walks, merged, hwalks, hunique, hown, htable, hstands.get?, load_eq_ok_iff htable,
    load_eq_error_iff htable, ?_⟩
  intro e he
  unfold load at he
  rw [htable] at he
  cases hsaid : readTable merged with
  | sound s =>
    simp only [hsaid] at he
    cases he
  | faulty first others =>
    simp only [hsaid] at he
    cases he
    exact ⟨first :: others, rfl⟩

end Project

section Example

open Source

/-- A project with one document, which includes another one and one that is not there. -/
def layeredTree : FileTree :=
  documentTree [(".stylebridge.toml", "include=['base.toml','gone.toml']\ntimeout=1"),
    ("base.toml", "timeout=2")]

def layeredSource : Source := { document := ⟨.root, [".stylebridge.toml"]⟩, scope := .whole }

/-- The layered document is found. -/
theorem find_layeredTree : find layeredTree layeredSource.document =
    .ok (some (layeredSource.document, .file
      "include=['base.toml','gone.toml']\ntimeout=1".toUTF8 0o644)) := rfl

/-- The layered document says its table. -/
theorem says_layeredTree_document :
    Says layeredTree layeredSource layeredSource.document layeredSource.document
      [("include", .list [.text "base.toml", .text "gone.toml"]), ("timeout", .int 1)] :=
  Says.of_text rfl (Toml.read_of_assignments (by decide) (by rw [Toml.statements_ofList]; rfl))

/-- The included document says its table. -/
theorem says_layeredTree_base :
    Says layeredTree layeredSource layeredSource.document ⟨.root, ["base.toml"]⟩
      [("timeout", .int 2)] :=
  Says.of_text rfl (Toml.read_of_assignments (by decide) (by rw [Toml.statements_ofList]; rfl))

/-- The graph of the layered documents is closed. -/
theorem closed_layeredTree : Closed layeredTree layeredSource layeredSource.document
    [(layeredSource.document, [⟨.root, ["base.toml"]⟩, ⟨.root, ["gone.toml"]⟩]),
      (⟨.root, ["base.toml"]⟩, [])] := by
  refine ⟨?_, by decide +kernel⟩
  intro node hnode
  simp only [List.mem_cons, List.not_mem_nil, or_false] at hnode
  rcases hnode with rfl | rfl
  · exact ⟨_, says_layeredTree_document, rfl⟩
  · exact ⟨_, says_layeredTree_base, rfl⟩

/-- Above the layered document there is none of a project. -/
theorem find_missing_layeredTree :
    find layeredTree (Path.child ⟨.root, []⟩ "pyproject.toml") = .ok none := rfl

/-- Every source of the layered documents has layers. -/
theorem isLayered_layeredTree : ∀ source ∈ sources ⟨.root, []⟩, IsLayered layeredTree source := by
  have hgraph := closed_layeredTree
  intro source hsource
  simp only [sources, List.mem_cons, List.not_mem_nil, or_false] at hsource
  rcases hsource with rfl | rfl
  · obtain ⟨hread, hlook, hacyclic, hflat⟩ :=
      @of_missing layeredTree ⟨_, .tool, "include"⟩ find_missing_layeredTree
    exact ⟨hread, hlook, hacyclic, hflat⟩
  · refine ⟨hgraph.readable List.mem_cons_self find_layeredTree,
      hgraph.looksUp List.mem_cons_self find_layeredTree (by decide +kernel),
      hgraph.not_hasCycle (fun p => if p.segments = ["base.toml"] then 0 else 1)
        List.mem_cons_self find_layeredTree (by decide +kernel),
      hgraph.saysFlat List.mem_cons_self find_layeredTree ?_⟩
    intro node hnode
    simp only [List.mem_cons, List.not_mem_nil, or_false] at hnode
    rcases hnode with rfl | rfl
    · exact ⟨_, says_layeredTree_document, by simp [IsFlat]⟩
    · exact ⟨_, says_layeredTree_base, by simp [IsFlat]⟩

/-- The layers of the source are those of the included document and then its own. -/
theorem postOrder_layeredTree :
    PostOrder layeredTree layeredSource [[("timeout", .int 2)], [("timeout", .int 1)]] := by
  have hbase : Walk layeredTree layeredSource layeredSource.document ⟨.root, ["base.toml"]⟩
      [[("timeout", .int 2)]] :=
    .document ⟨_, rfl⟩ says_layeredTree_base rfl .nil
  have hgone : Walk layeredTree layeredSource layeredSource.document ⟨.root, ["gone.toml"]⟩ [] :=
    .missing rfl
  refine ⟨layeredSource.document, fun _ h => LeadsTo.eq find_layeredTree h, ?_⟩
  exact .document ⟨_, find_layeredTree⟩ says_layeredTree_document rfl
    (.cons hbase (.cons hgone .nil))

/-- The layered documents are loaded with the values of the last layer. -/
theorem load_layers_layeredTree :
    (∀ source ∈ sources ⟨.root, []⟩, IsLayered layeredTree source) ∧
      ∃ merged,
        table layeredTree ⟨.root, []⟩ [("accept_nonzero_exit", .bool false)] = .ok merged ∧
        Members.get? merged "timeout" = some (.int 1) ∧
        Members.get? merged "accept_nonzero_exit" = some (.bool false) := by
  obtain ⟨walks, merged, -, hunique, -, htable, hget, -⟩ :=
    @load_layers layeredTree ⟨.root, []⟩ [("accept_nonzero_exit", .bool false)]
      isLayered_layeredTree (by simp [IsFlat]) (by simp [Members.names])
  have hnone : PostOrder layeredTree
      ⟨Path.child ⟨.root, []⟩ "pyproject.toml", .tool, "include"⟩ [] :=
    ⟨⟨.root, []⟩, fun place h => absurd h (not_leadsTo find_missing_layeredTree place),
      .missing find_missing_layeredTree⟩
  obtain rfl := hunique _ (.cons hnone (.cons postOrder_layeredTree .nil))
  exact ⟨isLayered_layeredTree, merged, htable, (hget "timeout").trans rfl,
    (hget "accept_nonzero_exit").trans rfl⟩

/-- A document that includes a path that is too long to be looked up. -/
def overlongText : List Char :=
  ['i', 'n', 'c', 'l', 'u', 'd', 'e', '=', '\x27'] ++ longName ++ ['\x27']

def overlongTree : FileTree := documentTree [(".stylebridge.toml", String.ofList overlongText)]

/-- The document with the overlong include is found. -/
theorem find_overlongTree : find overlongTree layeredSource.document =
    .ok (some (layeredSource.document, .file (String.ofList overlongText).toUTF8 0o644)) := rfl

set_option maxRecDepth 10000 in
/-- The document with the overlong include says its table. -/
theorem says_overlongTree :
    Says overlongTree layeredSource layeredSource.document layeredSource.document
      [("include", .text (String.ofList longName))] :=
  Says.of_text rfl (Toml.read_of_assignments (by decide) (by rw [Toml.statements_ofList]; rfl))

/-- The overlong include is read as one path. -/
theorem includes_overlongTree :
    includes ⟨.root, []⟩ (some (.text (String.ofList longName))) =
      .ok [⟨.root, [String.ofList longName]⟩] := by
  simp only [includes, join_longName]

/-- The graph of the overlong include is closed. -/
theorem closed_overlongTree : Closed overlongTree layeredSource layeredSource.document
    [(layeredSource.document, [⟨.root, [String.ofList longName]⟩])] := by
  constructor
  · intro node hnode
    rw [List.mem_singleton.mp hnode]
    exact ⟨_, says_overlongTree, includes_overlongTree⟩
  · intro node hnode document hdocument next hnext
    rw [List.mem_singleton.mp hnode] at hdocument
    rw [List.mem_singleton.mp hdocument, overlongTree, placeOf?_longName] at hnext
    cases hnext

/-- The source with the overlong include fails with the name that is too long. -/
theorem load_overlongSource :
    Source.load overlongTree layeredSource = .error (.file .nameTooLong) := by
  have hlong : find overlongTree ⟨.root, [String.ofList longName]⟩ =
      .error (.file .nameTooLong) := find_longName _
  unfold Source.load
  rw [loadFrom_of_own find_overlongTree List.not_mem_nil ⟨fun _ => rfl, fun _ => rfl⟩
    says_overlongTree includes_overlongTree, List.mapM_cons, loadFrom_of_error hlong]
  rfl

/-- An include that is too long to be looked up is not one that says nothing. -/
theorem load_overlongTree :
    (∀ source ∈ sources ⟨.root, []⟩, Readable overlongTree source ∧
      ¬ HasCycle overlongTree source ∧ SaysFlat overlongTree source) ∧
      load overlongTree ⟨.root, []⟩ [] = .error (.file .nameTooLong) := by
  have hmissing : find overlongTree (Path.child ⟨.root, []⟩ "pyproject.toml") = .ok none := rfl
  constructor
  · intro source hsource
    simp only [sources, List.mem_cons, List.not_mem_nil, or_false] at hsource
    rcases hsource with rfl | rfl
    · obtain ⟨hread, -, hacyclic, hflat⟩ :=
        @of_missing overlongTree ⟨_, .tool, "include"⟩ hmissing
      exact ⟨hread, hacyclic, hflat⟩
    · have hgraph := closed_overlongTree
      refine ⟨hgraph.readable List.mem_cons_self find_overlongTree,
        hgraph.not_hasCycle (fun _ => 0) List.mem_cons_self find_overlongTree ?_,
        hgraph.saysFlat List.mem_cons_self find_overlongTree ?_⟩
      · intro node hnode document hdocument next hnext
        rw [List.mem_singleton.mp hnode] at hdocument
        rw [List.mem_singleton.mp hdocument, overlongTree, placeOf?_longName] at hnext
        cases hnext
      · intro node hnode
        rw [List.mem_singleton.mp hnode]
        exact ⟨_, says_overlongTree, by simp [IsFlat]⟩
  · have hfirst : Source.load overlongTree
        ⟨Path.child ⟨.root, []⟩ "pyproject.toml", .tool, "include"⟩ = .ok [] :=
      loadFrom_of_missing hmissing
    have hsecond : Source.load overlongTree
        ⟨Path.child ⟨.root, []⟩ ".stylebridge.toml", .whole, "include"⟩ =
          .error (.file .nameTooLong) := load_overlongSource
    have htable : table overlongTree ⟨.root, []⟩ [] = .error (.file .nameTooLong) := by
      simp only [table, sources, List.mapM_cons, hfirst, hsecond]
      rfl
    exact load_of_table_error htable

end Example

end LintGateway.Settings
