import LintGateway.Proofs.Settings.Includes
import LintGateway.Proofs.Settings.Layers

/-!
# How loading settings fails

Most of what can be wrong with the documents of a project ends in a configuration error: text that
is no TOML, a circular include, an include that is neither a text nor a list, a member or a value
that settings do not have. Some of it does not (`Escapes`): a path that is too long to be looked up,
a document that is not UTF-8 or that the TOML reader gives up on, and a declaration of includes with
an item that is not a text, or of a value that cannot be written out.

Each document that a source comes to is loaded in one of a few ways (`LoadStep`). Along the includes
this says that a failure is a configuration error or comes from something that escapes
(`load_error`), and that nothing that escapes is passed over (`not_escapes_of_load`); together they
say how loading a project ends (`load_fails`).
-/

set_option autoImplicit false

namespace LintGateway.Settings

namespace Source

/-! ## What escapes -/

/-- A content that is not read as a document, for a reason that is not told as a configuration
error. -/
inductive Unreadable (content : ByteArray) : LoadError → Prop
  | notUtf8 {stop : Nat} (h : Text.decode content = .error stop) : Unreadable content .notUtf8
  | longInteger {s : String} {digits : Nat} (htext : Text.decode content = .ok s)
      (h : Toml.read s = .error (.longInteger digits)) :
      Unreadable content (.longInteger (some digits))
  | tooDeep {s : String} (htext : Text.decode content = .ok s)
      (h : Toml.read s = .error .tooDeep) : Unreadable content .tooDeep

/-- What a document says of its includes is not understood, for a reason that is not told as a
configuration error. -/
inductive Misdeclared : Value → LoadError → Prop
  | item {items : List Value} {v : Value} (hmem : v ∈ items) (h : ∀ s, v ≠ .text s) :
      Misdeclared (.list items) .includeNotText
  | unwritable {v : Value} (htext : ∀ s, v ≠ .text s) (hlist : ∀ items, v ≠ .list items)
      (h : v.isWritable = false) : Misdeclared v (.longInteger none)

section Graph

variable (tree : FileTree) (source : Source)

/-- The path of a document that loading a source can come to: that of its first document, or one
that a document which can be reached declares. -/
inductive Meets : Path → Prop
  | first : Meets source.document
  | declared {top place document : Path} (htop : LeadsTo tree source.document top)
      (hreach : Reaches tree source top place)
      (hdeclares : Declares tree source top place document) : Meets document

/-- Something that loading a source can come to fails with an error of another kind than that of the
configuration. -/
inductive Escapes : LoadError → Prop
  | path {document : Path} (hmeets : Meets tree source document)
      (h : tree.locate document false = .error .nameTooLong) : Escapes (.file .nameTooLong)
  | content {document place : Path} {content : ByteArray} {mode : Nat} {e : LoadError}
      (hmeets : Meets tree source document)
      (hfound : find tree document = .ok (some (place, .file content mode)))
      (h : Unreadable content e) : Escapes e
  | declaration {top place : Path} {own : Value.Table} {v : Value} {e : LoadError}
      (htop : LeadsTo tree source.document top) (hreach : Reaches tree source top place)
      (hsaid : Says tree source top place own)
      (hv : Members.get? own source.includeName = some v) (h : Misdeclared v e) : Escapes e

/-- Whatever is found where a document is looked for is a file. -/
def FindsFiles : Prop :=
  ∀ document place node, Meets tree source document →
    find tree document = .ok (some (place, node)) → node.isFile = true

end Graph

/-- A document is not looked for because its path has a name that is too long. -/
theorem tooLong_of_find {tree : FileTree} {document : Path} {e : LoadError}
    (h : find tree document = .error e) :
    tree.locate document false = .error .nameTooLong ∧ e = .file .nameTooLong := by
  by_cases hlong : tree.locate document false = .error .nameTooLong
  · rw [find_of_tooLong hlong] at h
    exact ⟨hlong, (Except.error.inj h).symm⟩
  · obtain ⟨found, hfound⟩ := find_ne_error hlong
    rw [hfound] at h
    cases h

/-- A document that cannot be read is not parsed, for that reason. -/
theorem parse_of_unreadable {document : Path} {content : ByteArray} {e : LoadError}
    (h : Unreadable content e) : parse document content = .error e := by
  unfold parse
  cases h with
  | notUtf8 h => simp only [h]
  | longInteger htext h => simp only [htext, h]
  | tooDeep htext h => simp only [htext, h]

/-- A document is not parsed because it is not TOML or cannot be read. -/
theorem unreadable_of_parse {document : Path} {content : ByteArray} {e : LoadError}
    (h : parse document content = .error e) :
    e = .config (.invalidToml document) ∨ Unreadable content e := by
  unfold parse at h
  cases hdecode : Text.decode content with
  | error stop =>
    rw [hdecode] at h
    cases h
    exact Or.inr (.notUtf8 hdecode)
  | ok s =>
    simp only [hdecode] at h
    cases hread : Toml.read s with
    | ok t =>
      rw [hread] at h
      cases h
    | error why =>
      rw [hread] at h
      cases why with
      | malformed =>
        cases h
        exact Or.inl rfl
      | longInteger digits =>
        cases h
        exact Or.inr (.longInteger hdecode hread)
      | tooDeep =>
        cases h
        exact Or.inr (.tooDeep hdecode hread)

/-- An include list declared amiss fails as it is. -/
theorem includes_of_misdeclared {base : Path} {v : Value} {e : LoadError} (h : Misdeclared v e) :
    includes base (some v) = .error e := by
  cases h with
  | @item items v hmem hv =>
    refine mapM_eq_error_of_mem hmem ?_ ?_
    · intro p hp
      cases v with
      | text s => exact hv s rfl
      | _ => cases hp
    · intro item why hitem
      cases item with
      | text s => cases hitem
      | _ => exact (Except.error.inj hitem).symm
  | unwritable htext hlist h =>
    cases v with
    | text s => exact absurd rfl (htext s)
    | list items => exact absurd rfl (hlist items)
    | _ => simp [includes, h]

/-- An include list fails by an error of configuration or because it is declared amiss. -/
theorem misdeclared_of_includes {base : Path} {raw : Option Value} {e : LoadError}
    (h : includes base raw = .error e) :
    (∃ c, e = .config c) ∨ ∃ v, raw = some v ∧ Misdeclared v e := by
  cases raw with
  | none => cases h
  | some v =>
    cases v with
    | text s => cases h
    | list items =>
      simp only [includes] at h
      obtain ⟨before, v, after, rfl, -, hv⟩ := (mapM_eq_error_iff _ items e).mp h
      have hmem : v ∈ before ++ v :: after := List.mem_append_right _ List.mem_cons_self
      refine Or.inr ⟨_, rfl, ?_⟩
      cases v with
      | text s => cases hv
      | _ =>
        cases hv
        exact .item hmem fun s => Value.noConfusion
    | _ =>
      simp only [includes] at h
      split at h
      · cases h
        exact Or.inl ⟨_, rfl⟩
      · rename_i hlong
        cases h
        refine Or.inr ⟨_, rfl, .unwritable ?_ ?_ (Bool.eq_false_iff.mpr hlong)⟩
        · exact fun s => Value.noConfusion
        · exact fun items => Value.noConfusion

/-! ## One document -/

/-- The ways in which a document is loaded, and what each comes to: its path is too long, or leads
nowhere, or back to a document that is being loaded, or to what is no file; the content cannot be
read, or what it says of its includes is not understood; otherwise the document is merged over what
it includes. -/
inductive LoadStep (tree : FileTree) (source : Source) (left : Nat) (loading : List Path)
    (document : Path) : Except LoadError Value.Table → Prop
  | tooLong (h : tree.locate document false = .error .nameTooLong) :
      LoadStep tree source left loading document (.error (.file .nameTooLong))
  | missing (h : find tree document = .ok none) :
      LoadStep tree source left loading document (.ok [])
  | circular {place : Path} {node : Node} (h : find tree document = .ok (some (place, node)))
      (hmem : place ∈ loading) :
      LoadStep tree source left loading document
        (.error (.config (.circularInclude (loading ++ [place]))))
  | notFile {place : Path} {node : Node} (h : find tree document = .ok (some (place, node)))
      (hnode : node.isFile = false) :
      LoadStep tree source left loading document (.error (.file .isDirectory))
  | unreadable {place : Path} {content : ByteArray} {mode : Nat} {e : LoadError}
      (h : find tree document = .ok (some (place, .file content mode)))
      (hparse : parse document content = .error e) :
      LoadStep tree source left loading document (.error e)
  | misdeclared {place : Path} {content : ByteArray} {mode : Nat} {whole own : Value.Table}
      {e : LoadError} (h : find tree document = .ok (some (place, .file content mode)))
      (hnew : place ∉ loading) (hparse : parse document content = .ok whole)
      (hown : own = if loading = [] then select source.scope whole else whole)
      (hincludes : includes place.parent (Members.get? own source.includeName) = .error e) :
      LoadStep tree source left loading document (.error e)
  | merged {place : Path} {content : ByteArray} {mode : Nat} {whole own : Value.Table}
      {documents : List Path} (h : find tree document = .ok (some (place, .file content mode)))
      (hnew : place ∉ loading) (hparse : parse document content = .ok whole)
      (hown : own = if loading = [] then select source.scope whole else whole)
      (hincludes : includes place.parent (Members.get? own source.includeName) = .ok documents) :
      LoadStep tree source left loading document
        ((documents.mapM (loadFrom tree source left (loading ++ [place]))).map fun included =>
          merge (mergeAll included) (Members.erase own source.includeName))

variable {tree : FileTree} {source : Source} {top : Path}

section Steps

variable {left : Nat} {loading : List Path} {document place : Path} {content : ByteArray} {mode : Nat}

/-- Reading a directory as a document fails. -/
theorem loadFrom_of_notFile {node : Node} (h : find tree document = .ok (some (place, node)))
    (hnew : place ∉ loading) (hnode : node.isFile = false) :
    loadFrom tree source (left + 1) loading document = .error (.file .isDirectory) := by
  cases node with
  | file => cases hnode
  | _ => simp only [loadFrom, h, if_neg hnew]

/-- A document that is not parsed is not loaded. -/
theorem loadFrom_of_unreadable {e : LoadError}
    (h : find tree document = .ok (some (place, .file content mode))) (hnew : place ∉ loading)
    (hparse : parse document content = .error e) :
    loadFrom tree source (left + 1) loading document = .error e := by
  simp only [loadFrom, h, if_neg hnew, hparse]
  rfl

/-- A document with an include list that fails is not loaded. -/
theorem loadFrom_of_misdeclared {whole own : Value.Table} {e : LoadError}
    (h : find tree document = .ok (some (place, .file content mode))) (hnew : place ∉ loading)
    (hparse : parse document content = .ok whole)
    (hown : own = if loading = [] then select source.scope whole else whole)
    (hincludes : includes place.parent (Members.get? own source.includeName) = .error e) :
    loadFrom tree source (left + 1) loading document = .error e := by
  have hfirst : (if loading.isEmpty then select source.scope whole else whole) = own := by
    rw [hown]
    cases loading <;> rfl
  simp only [loadFrom, h, if_neg hnew, hparse]
  show (includes place.parent (Members.get? _ _) >>= _ : Except LoadError _) = _
  rw [hfirst, hincludes]
  rfl

end Steps

/-- One step of the loading is one of the steps that it can take. -/
theorem loadStep (tree : FileTree) (source : Source) (left : Nat) (loading : List Path)
    (document : Path) :
    LoadStep tree source left loading document
      (loadFrom tree source (left + 1) loading document) := by
  cases hfound : find tree document with
  | error e =>
    rw [loadFrom_of_error hfound]
    obtain ⟨hlong, rfl⟩ := tooLong_of_find hfound
    exact .tooLong hlong
  | ok found =>
    cases found with
    | none =>
      rw [loadFrom_of_missing hfound]
      exact .missing hfound
    | some pair =>
      obtain ⟨place, node⟩ := pair
      by_cases hmem : place ∈ loading
      · rw [loadFrom_of_mem hfound hmem]
        exact .circular hfound hmem
      · cases node with
        | file content mode =>
          cases hparse : parse document content with
          | error e =>
            rw [loadFrom_of_unreadable hfound hmem hparse]
            exact .unreadable hfound hparse
          | ok whole =>
            cases hincludes : includes place.parent
                (Members.get? (if loading = [] then select source.scope whole else whole)
                  source.includeName) with
            | error e =>
              rw [loadFrom_of_misdeclared hfound hmem hparse rfl hincludes]
              exact .misdeclared hfound hmem hparse rfl hincludes
            | ok documents =>
              rw [loadFrom_of_not_mem hfound hmem hparse rfl hincludes]
              exact .merged hfound hmem hparse rfl hincludes
        | directory | link =>
          rw [loadFrom_of_notFile hfound hmem rfl]
          exact .notFile hfound rfl

/-- What was loaded from a document is new, a file, parsed, and its includes are loaded. -/
theorem exists_of_loadFrom_ok {left : Nat} {loading : List Path} {document place : Path}
    {node : Node} {t : Value.Table} (hfound : find tree document = .ok (some (place, node)))
    (h : loadFrom tree source (left + 1) loading document = .ok t) :
    place ∉ loading ∧ ∃ content mode whole own documents, node = .file content mode ∧
      parse document content = .ok whole ∧
      own = (if loading = [] then select source.scope whole else whole) ∧
      includes place.parent (Members.get? own source.includeName) = .ok documents ∧
      ∀ d ∈ documents, ∃ t, loadFrom tree source left (loading ++ [place]) d = .ok t := by
  have hstep := loadStep tree source left loading document
  generalize loadFrom tree source (left + 1) loading document = result at h hstep
  cases hstep with
  | tooLong | circular | notFile | unreadable | misdeclared => cases h
  | missing hnone =>
    rw [hfound] at hnone
    cases hnone
  | @merged other content mode whole own documents hfile hnew hparse hown hincludes =>
    rw [hfound] at hfile
    obtain ⟨rfl, rfl⟩ := Prod.mk.inj (Option.some.inj (Except.ok.inj hfile))
    refine ⟨hnew, content, mode, whole, own, documents, rfl, hparse, hown, hincludes, ?_⟩
    obtain ⟨included, hincluded, -⟩ := (map_eq_ok_iff _ _ _).mp h
    exact (exists_forall₂_iff _ documents).mp
      ⟨included, (mapM_eq_ok_iff _ documents included).mp hincluded⟩

/-! ## Along the includes -/

section Way

variable {left : Nat} {loading : List Path} {document place : Path}

/-- What a document below the first one holds is what the document says. -/
theorem IsBelow.said {content : ByteArray} {mode : Nat} {whole own : Value.Table}
    (h : IsBelow tree top loading document)
    (hfound : find tree document = .ok (some (place, .file content mode)))
    (hnew : place ∉ loading) (hparse : parse document content = .ok whole)
    (hown : own = if loading = [] then select source.scope whole else whole) :
    Says tree source top place own := by
  refine ⟨content, mode, whole, (find_eq_some hfound).2, parse_eq_ok_of_eq_ok hparse, ?_⟩
  rw [hown]
  exact if_congr (h.first_iff ⟨_, hfound⟩ hnew) rfl rfl

/-- Loading a document fails with a configuration error, or because of something that escapes. -/
theorem escapes_of_loadFrom (hfiles : FindsFiles tree source)
    (htop : LeadsTo tree source.document top) (hmeets : Meets tree source document)
    (hreach : ∀ place, LeadsTo tree document place → Reaches tree source top place)
    (hbelow : IsBelow tree top loading document) {e : LoadError}
    (h : loadFrom tree source left loading document = .error e) :
    (∃ c, e = .config c) ∨ Escapes tree source e := by
  -- On the bound, which ends in a configuration error. What is loaded stays among the documents that
  -- are met, by `hmeets` and `hreach`.
  induction left generalizing loading document with
  | zero =>
    cases h
    exact Or.inl ⟨_, rfl⟩
  | succ left ih =>
    have hstep := loadStep tree source left loading document
    generalize loadFrom tree source (left + 1) loading document = result at h hstep
    cases hstep with
    | tooLong hlong =>
      cases h
      exact Or.inr (.path hmeets hlong)
    | missing => cases h
    | circular =>
      cases h
      exact Or.inl ⟨_, rfl⟩
    | notFile hfound hnode =>
      rw [hfiles _ _ _ hmeets hfound] at hnode
      cases hnode
    | unreadable hfound hparse =>
      cases h
      rcases unreadable_of_parse hparse with rfl | hunreadable
      · exact Or.inl ⟨_, rfl⟩
      · exact Or.inr (.content hmeets hfound hunreadable)
    | misdeclared hfound hnew hparse hown hincludes =>
      cases h
      rcases misdeclared_of_includes hincludes with hconfig | ⟨v, hv, hbad⟩
      · exact Or.inl hconfig
      · exact Or.inr (.declaration htop (hreach _ ⟨_, hfound⟩)
          (hbelow.said hfound hnew hparse hown) hv hbad)
    | @merged place content mode whole own documents hfound hnew hparse hown hincludes =>
      have hleads : LeadsTo tree document place := ⟨_, hfound⟩
      have hplace := hreach place hleads
      have hsaid : Says tree source top place own := hbelow.said hfound hnew hparse hown
      obtain ⟨before, d, after, rfl, -, hd⟩ :=
        (mapM_eq_error_iff _ documents e).mp ((map_eq_error_iff _ _ _).mp h)
      have hdeclares : Declares tree source top place d :=
        ⟨own, _, hsaid, hincludes, List.mem_append_right _ List.mem_cons_self⟩
      exact ih (.declared htop hplace hdeclares)
        (fun next hnext => hplace.tail ⟨d, hdeclares, hnext⟩) (hbelow.next hleads d) hd

/-- Where a document was loaded, so was each one that it declares. -/
theorem exists_loadFrom_of_declares {t : Value.Table} {d : Path}
    (hleads : LeadsTo tree document place) (hbelow : IsBelow tree top loading document)
    (h : loadFrom tree source (left + 1) loading document = .ok t)
    (hdeclares : Declares tree source top place d) :
    ∃ below t, left = below + 1 ∧
      loadFrom tree source (below + 1) (loading ++ [place]) d = .ok t := by
  obtain ⟨node, hfound⟩ := hleads
  obtain ⟨hnew, content, mode, whole, own, documents, rfl, hparse, hown, hincludes, heach⟩ :=
    exists_of_loadFrom_ok hfound h
  obtain ⟨own', documents', hsaid', hincludes', hd⟩ := hdeclares
  obtain rfl := (hbelow.said hfound hnew hparse hown).eq hsaid'
  obtain rfl := Except.ok.inj (hincludes.symm.trans hincludes')
  obtain ⟨t, ht⟩ := heach d hd
  cases left with
  | zero => cases ht
  | succ below => exact ⟨below, t, rfl, ht⟩

/-- Where a source was loaded, so was each document that can be reached. -/
theorem exists_loadFrom_of_reaches {t : Value.Table} (h : load tree source = .ok t)
    (htop : LeadsTo tree source.document top) (hreach : Reaches tree source top place) :
    ∃ left loading document t, LeadsTo tree document place ∧ IsBelow tree top loading document ∧
      loadFrom tree source (left + 1) loading document = .ok t := by
  induction hreach with
  | refl =>
    obtain ⟨node, hfound⟩ := htop
    exact ⟨_, [], source.document, t, ⟨node, hfound⟩,
      Or.inl ⟨rfl, fun place hplace => LeadsTo.eq hfound hplace⟩, h⟩
  | tail _ hedge ih =>
    obtain ⟨left, loading, document, t, hleads, hbelow, hload⟩ := ih
    obtain ⟨d, hdeclares, hnext⟩ := hedge
    obtain ⟨below, t', rfl, hd⟩ := exists_loadFrom_of_declares hleads hbelow hload hdeclares
    exact ⟨below, _, d, t', hnext, hbelow.next hleads d, hd⟩

/-- Every document that a source meets is loaded when the source is. -/
theorem exists_loadFrom_of_meets {t : Value.Table} (h : load tree source = .ok t)
    (hmeets : Meets tree source document) :
    ∃ left loading t, loadFrom tree source (left + 1) loading document = .ok t := by
  cases hmeets with
  | first => exact ⟨_, [], t, h⟩
  | declared htop hreach hdeclares =>
    obtain ⟨left, loading, document, t, hleads, hbelow, hload⟩ :=
      exists_loadFrom_of_reaches h htop hreach
    obtain ⟨below, t', rfl, hd⟩ := exists_loadFrom_of_declares hleads hbelow hload hdeclares
    exact ⟨below, _, t', hd⟩

end Way

/-! ## A source -/

/-- The loading of a source fails by an error of configuration or by one that escapes. -/
theorem load_error (hfiles : FindsFiles tree source) {e : LoadError}
    (h : load tree source = .error e) : (∃ c, e = .config c) ∨ Escapes tree source e := by
  cases hfound : find tree source.document with
  | error why =>
    unfold load at h
    rw [loadFrom_of_error hfound] at h
    obtain ⟨hlong, rfl⟩ := tooLong_of_find hfound
    cases h
    exact Or.inr (.path .first hlong)
  | ok found =>
    cases found with
    | none =>
      unfold load at h
      rw [loadFrom_of_missing hfound] at h
      cases h
    | some pair =>
      obtain ⟨top, node⟩ := pair
      have honly : ∀ place, LeadsTo tree source.document place → place = top :=
        fun place hplace => LeadsTo.eq hfound hplace
      have hreach : ∀ place, LeadsTo tree source.document place →
          Reaches tree source top place := by
        intro place hplace
        rw [honly place hplace]
        exact .refl
      exact escapes_of_loadFrom hfiles ⟨node, hfound⟩ .first hreach (Or.inl ⟨rfl, honly⟩) h

/-- A source that is loaded comes to nothing that escapes. -/
theorem not_escapes_of_load {t : Value.Table} (h : load tree source = .ok t) (e : LoadError) :
    ¬ Escapes tree source e := by
  intro hescapes
  cases hescapes with
  | path hmeets hlong =>
    obtain ⟨left, loading, t, hload⟩ := exists_loadFrom_of_meets h hmeets
    rw [loadFrom_of_error (find_of_tooLong hlong)] at hload
    cases hload
  | content hmeets hfound hunreadable =>
    obtain ⟨left, loading, t, hload⟩ := exists_loadFrom_of_meets h hmeets
    obtain ⟨-, content, mode, whole, -, -, hnode, hparse, -⟩ := exists_of_loadFrom_ok hfound hload
    obtain ⟨rfl, rfl⟩ := Node.file.inj hnode
    rw [parse_of_unreadable hunreadable] at hparse
    cases hparse
  | declaration htop hreach hsaid hv hbad =>
    obtain ⟨left, loading, document, t, hleads, hbelow, hload⟩ :=
      exists_loadFrom_of_reaches h htop hreach
    obtain ⟨node, hfound⟩ := hleads
    obtain ⟨hnew, content, mode, whole, own, documents, rfl, hparse, hown, hincludes, -⟩ :=
      exists_of_loadFrom_ok hfound hload
    obtain rfl := (hbelow.said hfound hnew hparse hown).eq hsaid
    rw [hv, includes_of_misdeclared hbad] at hincludes
    cases hincludes

/-- The content of the first document fails the source at once. -/
theorem load_of_unreadable {place : Path} {content : ByteArray} {mode : Nat} {e : LoadError}
    (hfound : find tree source.document = .ok (some (place, .file content mode)))
    (h : Unreadable content e) : load tree source = .error e :=
  loadFrom_of_unreadable hfound List.not_mem_nil (parse_of_unreadable h)

/-- A source without its document meets only files. -/
theorem findsFiles_of_missing (h : find tree source.document = .ok none) :
    FindsFiles tree source := by
  intro document place node hmeets hfound
  cases hmeets with
  | first =>
    rw [h] at hfound
    cases hfound
  | declared htop => exact absurd htop (not_leadsTo h _)

/-- Nothing is declared where the first document is not read. -/
theorem findsFiles_of_unreadable {place : Path} {content : ByteArray} {mode : Nat} {e : LoadError}
    (hfirst : find tree source.document = .ok (some (place, .file content mode)))
    (h : Unreadable content e) : FindsFiles tree source := by
  have hsilent : ∀ document, ¬ Declares tree source place place document := by
    rintro document ⟨own, documents, ⟨content', mode', whole, hget, hparse, -⟩, -⟩
    rw [(find_eq_some hfirst).2] at hget
    obtain ⟨rfl, rfl⟩ := Node.file.inj (Option.some.inj hget)
    rw [parse_of_unreadable h] at hparse
    cases hparse
  intro document found node hmeets hfound
  cases hmeets with
  | first =>
    rw [hfirst] at hfound
    obtain ⟨rfl, rfl⟩ := Prod.mk.inj (Option.some.inj (Except.ok.inj hfound))
    rfl
  | declared htop hreach hdeclares =>
    rw [LeadsTo.eq hfirst htop] at hreach hdeclares
    rcases hreach.cases_head with rfl | ⟨next, ⟨document, hfirst, -⟩, -⟩
    · exact absurd hdeclares (hsilent _)
    · exact absurd hfirst (hsilent _)

end Source

/-! ## The settings of a project -/

open Source (FindsFiles Escapes Unreadable)

section Load

variable {tree : FileTree} {root : Path} {overrides : Value.Table}

/-- The layers fail as the first source does that is not loaded. -/
theorem table_eq_error_iff (e : LoadError) :
    table tree root overrides = .error e ↔
      ∃ before source after, sources root = before ++ source :: after ∧
        (∀ other ∈ before, ∃ t, Source.load tree other = .ok t) ∧
        Source.load tree source = .error e := by
  unfold table
  rw [map_eq_error_iff, mapM_eq_error_iff]

/-- The settings fail as the first source does that is not loaded. -/
theorem load_of_sources {before after : List Source} {source : Source} {e : LoadError}
    (hsplit : sources root = before ++ source :: after)
    (hbefore : ∀ other ∈ before, ∃ t, Source.load tree other = .ok t)
    (h : Source.load tree source = .error e) : load tree root overrides = .error e :=
  load_of_table_error ((table_eq_error_iff e).mpr ⟨before, source, after, hsplit, hbefore, h⟩)

/-- Every source is loaded when the layers are merged. -/
theorem exists_loads_of_table {merged : Value.Table}
    (h : table tree root overrides = .ok merged) :
    ∀ source ∈ sources root, ∃ t, Source.load tree source = .ok t := by
  obtain ⟨layers, hlayers, -⟩ := (map_eq_ok_iff _ _ _).mp h
  exact (exists_forall₂_iff _ _).mp ⟨layers, (mapM_eq_ok_iff _ _ _).mp hlayers⟩

/-- Loading the settings fails with a configuration error, or because of something that escapes. -/
theorem load_eq_error_cases (hfiles : ∀ source ∈ sources root, FindsFiles tree source)
    {e : LoadError} (h : load tree root overrides = .error e) :
    (∃ c, e = .config c) ∨ ∃ source ∈ sources root, Escapes tree source e := by
  cases htable : table tree root overrides with
  | ok merged =>
    unfold load at h
    simp only [htable] at h
    cases hread : readTable merged with
    | sound s =>
      rw [hread] at h
      cases h
    | faulty first others =>
      rw [hread] at h
      cases h
      exact Or.inl ⟨_, rfl⟩
  | error why =>
    rw [load_of_table_error htable] at h
    cases h
    obtain ⟨before, source, after, hsplit, -, hload⟩ := (table_eq_error_iff e).mp htable
    have hmem : source ∈ sources root := by
      rw [hsplit]
      exact List.mem_append_right _ List.mem_cons_self
    rcases Source.load_error (hfiles source hmem) hload with hconfig | hescapes
    · exact Or.inl hconfig
    · exact Or.inr ⟨source, hmem, hescapes⟩

/-- Where something escapes, loading the settings fails. -/
theorem exists_load_error {source : Source} (hmem : source ∈ sources root) {e : LoadError}
    (h : Escapes tree source e) : ∃ e, load tree root overrides = .error e := by
  cases htable : table tree root overrides with
  | error why => exact ⟨why, load_of_table_error htable⟩
  | ok merged =>
    obtain ⟨t, ht⟩ := exists_loads_of_table htable source hmem
    exact absurd h (Source.not_escapes_of_load ht e)

/-- How loading the settings of a project ends when whatever is found where a document is looked for
is a file. A failure is a configuration error or that of something that escapes, and where something
escapes loading does fail; so without it there are settings or a configuration error. A first
document whose content cannot be read for a reason that escapes ends the loading with just that
error, whatever is configured otherwise, once the sources before it are loaded. -/
theorem load_fails (overrides : Value.Table)
    (hfiles : ∀ source ∈ sources root, FindsFiles tree source) :
    (∀ e, load tree root overrides = .error e →
      (∃ c, e = .config c) ∨ ∃ source ∈ sources root, Escapes tree source e) ∧
    ((∃ source ∈ sources root, ∃ e, Escapes tree source e) →
      ∃ e, load tree root overrides = .error e) ∧
    ((∀ source ∈ sources root, ∀ e, ¬ Escapes tree source e) →
      (∃ s, load tree root overrides = .ok s) ∨
        ∃ c, load tree root overrides = .error (.config c)) ∧
    ∀ before source after place content mode e, sources root = before ++ source :: after →
      (∀ other ∈ before, ∃ t, Source.load tree other = .ok t) →
      Source.find tree source.document = .ok (some (place, .file content mode)) →
      Unreadable content e → load tree root overrides = .error e := by
  refine ⟨fun e h => load_eq_error_cases hfiles h, ?_, ?_, ?_⟩
  · rintro ⟨source, hmem, e, hescapes⟩
    exact exists_load_error hmem hescapes
  · intro hnone
    cases hload : load tree root overrides with
    | ok s => exact Or.inl ⟨s, rfl⟩
    | error e =>
      rcases load_eq_error_cases hfiles hload with ⟨c, rfl⟩ | ⟨source, hmem, hescapes⟩
      · exact Or.inr ⟨c, rfl⟩
      · exact absurd hescapes (hnone source hmem e)
  · intro before source after place content mode e hsplit hbefore hfound hunreadable
    exact load_of_sources hsplit hbefore (Source.load_of_unreadable hfound hunreadable)

end Load

section Example

/-- A project whose document is one byte that starts no character. -/
def undecodableTree : FileTree :=
  ⟨.directory [(".stylebridge.toml", .file ⟨#[0xff]⟩ 0o644)], []⟩

/-- The single byte ff is not UTF-8. -/
theorem unreadable_undecodable : Unreadable ⟨#[0xff]⟩ .notUtf8 := by
  have hdecode : Text.decode ⟨#[0xff]⟩ = .error 0 := by decide +kernel
  exact .notUtf8 hdecode

/-- The undecodable document is found where it is put. -/
theorem find_undecodableTree : Source.find undecodableTree ⟨.root, [".stylebridge.toml"]⟩ =
    .ok (some (⟨.root, [".stylebridge.toml"]⟩, .file ⟨#[0xff]⟩ 0o644)) := rfl

/-- Beside the undecodable document the first source is loaded. -/
theorem loads_undecodableTree_tool :
    ∀ other ∈ (sources ⟨.root, []⟩).take 1, ∃ t, Source.load undecodableTree other = .ok t := by
  have hmissing : Source.find undecodableTree ⟨.root, ["pyproject.toml"]⟩ = .ok none := rfl
  intro other hother
  rw [List.mem_singleton.mp hother]
  exact ⟨[], Source.loadFrom_of_missing hmissing⟩

/-- Every source of the undecodable document meets only files. -/
theorem findsFiles_undecodableTree :
    ∀ source ∈ sources ⟨.root, []⟩, FindsFiles undecodableTree source := by
  intro source hsource
  simp only [sources, List.mem_cons, List.not_mem_nil, or_false] at hsource
  rcases hsource with rfl | rfl
  · exact Source.findsFiles_of_missing rfl
  · exact Source.findsFiles_of_unreadable find_undecodableTree unreadable_undecodable

/-- The document that is not UTF-8 is what the loading fails with. -/
theorem load_fails_undecodable :
    (∀ source ∈ sources ⟨.root, []⟩, FindsFiles undecodableTree source) ∧
      ∀ overrides, load undecodableTree ⟨.root, []⟩ overrides = .error .notUtf8 := by
  refine ⟨findsFiles_undecodableTree, fun overrides => ?_⟩
  obtain ⟨-, -, -, hfirst⟩ := load_fails overrides findsFiles_undecodableTree
  exact hfirst _ _ [] _ _ _ _ rfl loads_undecodableTree_tool find_undecodableTree
    unreadable_undecodable

/-- A document that is not UTF-8 is not told as a configuration error. -/
theorem undecodable_is_no_config_error :
    ¬ ((∃ s, load undecodableTree ⟨.root, []⟩ [] = .ok s) ∨
      ∃ c, load undecodableTree ⟨.root, []⟩ [] = .error (.config c)) := by
  have hload : load undecodableTree ⟨.root, []⟩ [] = .error .notUtf8 :=
    load_of_sources rfl loads_undecodableTree_tool
      (Source.load_of_unreadable find_undecodableTree unreadable_undecodable)
  rw [hload]
  rintro (⟨s, hs⟩ | ⟨c, hc⟩)
  · cases hs
  · cases hc

end Example

end LintGateway.Settings
