import LintGateway.Proofs.Settings.Layers
import LintGateway.Proofs.Tracked.Suffixes
import LintGateway.Tracked.FileIndex

/-!
# The file suffixes of settings

Settings hold suffixes in normal form, so a search may be given them as they are. Written as one text
with commas or as a list, the same suffixes make the same settings: the text is cut, trimmed and rid
of its blank entries first, all of which is done to the list by its normal form
(`suffixes_normal_form`).
-/

set_option autoImplicit false

namespace LintGateway

namespace Schema

variable {known : List String} {name : String}

/-- Which members are unknown does not depend on those that are known. -/
theorem filter_unknown_put (t : Value.Table) (hname : name ∈ known) (v : Value) :
    ((t.put name v).filter fun m => m.1 ∉ known) = t.filter fun m => m.1 ∉ known := by
  induction t with
  | nil => simp [Members.put, hname]
  | cons m t ih =>
    obtain ⟨other, w⟩ := m
    unfold Members.put
    split
    · rename_i heq
      simp [heq, hname]
    · rw [List.filter_cons, List.filter_cons, ih]

/-- A known member put into an object adds nothing that is unknown. -/
theorem onlyKnown_put (t : Value.Table) (hname : name ∈ known) (v : Value) :
    onlyKnown known (t.put name v) = onlyKnown known t := by
  unfold onlyKnown
  rw [filter_unknown_put t hname]

end Schema

namespace Settings

variable {items : List String}

/-- Two values that read as the same suffixes make the same settings. -/
theorem readTable_put_congr (t : Value.Table) {v w : Value}
    (h : readSuffixes v = readSuffixes w) :
    readTable (t.put "file_suffixes" v) = readTable (t.put "file_suffixes" w) := by
  unfold readTable Schema.optional
  simp [Members.get?_put, Schema.onlyKnown_put, memberNames, h]

/-- The items of a list joined by commas are its items, trimmed, without the empty ones. -/
theorem splitList_intercalate (h : ∀ item ∈ items, ',' ∉ item.toList) :
    splitList (",".intercalate items) = (items.map Text.trim).filter (· ≠ "") := by
  by_cases hitems : items = []
  · rw [hitems]
    decide
  · have hpieces : Text.splitChars ',' ([','].intercalate (items.map String.toList)) =
        items.map String.toList := by
      apply Text.splitChars_intercalate (by simpa using hitems)
      simpa using h
    have hcomma : ",".toList = [','] := by decide
    unfold splitList Text.split
    rw [String.toList_intercalate, hcomma, hpieces]
    simp [Function.comp_def]

/-- Trimming entries and dropping the blank ones does not touch their normal form. -/
theorem normalize_trimmed (items : List String) :
    Suffix.normalize ((items.map Text.trim).filter (· ≠ "")) = Suffix.normalize items := by
  have hforms : ((items.map Text.trim).filter (· ≠ "")).filterMap Suffix.normal? =
      items.filterMap Suffix.normal? := by
    rw [List.filterMap_filter, List.filterMap_map]
    apply List.filterMap_congr
    intro item _
    by_cases hblank : Text.trim item = ""
    · have hnone := Suffix.normal?_eq_none_iff.mpr (Text.trim_eq_empty_iff.mp hblank)
      simp [hblank, hnone]
    · simp [hblank, Suffix.normal?_trim]
  rw [Suffix.normalize_eq, Suffix.normalize_eq, hforms]

/-- Suffixes given as a list are normalised. -/
theorem readSuffixes_list (items : List String) :
    readSuffixes (.list (items.map .text)) = .sound (Suffix.normalize items) := by
  have hwritable : (items.map Value.text).all Value.isWritable = true := by
    simp [Value.isWritable]
  have htexts : (items.map Value.text).map Value.toText = items := by
    simp [Value.toText, Function.comp_def]
  unfold readSuffixes
  simp only [hwritable, if_true, htexts]

/-- Suffixes given as a joined text are normalised. -/
theorem readSuffixes_joined (h : ∀ item ∈ items, ',' ∉ item.toList) :
    readSuffixes (.text (",".intercalate items)) = .sound (Suffix.normalize items) := by
  have hread : readSuffixes (.text (",".intercalate items)) =
      .sound (Suffix.normalize (splitList (",".intercalate items))) := rfl
  rw [hread, splitList_intercalate h, normalize_trimmed]

/-- Whatever suffixes are read from, they are in normal form. -/
theorem normalize_of_readSuffixes {v : Value} {suffixes : List String}
    (h : readSuffixes v = .sound suffixes) : Suffix.normalize suffixes = suffixes := by
  suffices hraw : ∃ raw, Suffix.normalize raw = suffixes by
    obtain ⟨raw, rfl⟩ := hraw
    exact Suffix.normalize_normalize raw
  cases v with
  | text s => exact ⟨splitList s, Schema.Checked.sound.inj h⟩
  | record t => exact ⟨t.map Prod.fst, Schema.Checked.sound.inj h⟩
  | list items | tuple items =>
    simp only [readSuffixes] at h
    split at h
    · exact ⟨items.map Value.toText, Schema.Checked.sound.inj h⟩
    · exact absurd h (Schema.Checked.reject_ne_sound _ _ _)
  | _ => exact absurd h (Schema.Checked.reject_ne_sound _ _ _)

/-- Settings that a table describes have normalised suffixes. -/
theorem Describes.normalize_fileSuffixes {t : Value.Table} {s : Settings} (h : Describes t s) :
    Suffix.normalize s.fileSuffixes = s.fileSuffixes := by
  rcases h.fileSuffixes with ⟨-, hstandard⟩ | ⟨v, -, hread⟩
  · rw [hstandard]
    decide +kernel
  · exact normalize_of_readSuffixes hread

/-- Settings that were read have normalised suffixes. -/
theorem normalize_of_read {given : Value} {s : Settings} (h : read given = .sound s) :
    Suffix.normalize s.fileSuffixes = s.fileSuffixes := by
  obtain ⟨t, -, ht⟩ := (Schema.readRecord_eq_sound_iff _ _ _ _ _).mp h
  exact ((readTable_eq_sound_iff t s).mp ht).normalize_fileSuffixes

/-- Settings that were loaded have normalised suffixes. -/
theorem normalize_of_load {tree : FileTree} {root : Path} {overrides : Value.Table} {s : Settings}
    (h : load tree root overrides = .ok s) : Suffix.normalize s.fileSuffixes = s.fileSuffixes := by
  cases hmerged : table tree root overrides with
  | error e =>
    unfold load at h
    rw [hmerged] at h
    cases h
  | ok merged =>
    obtain ⟨said, hsaid, rfl⟩ := (load_eq_ok_iff hmerged s).mp h
    exact hsaid.normalize_fileSuffixes

/-- Settings that set nothing but their suffixes. -/
theorem read_only_suffixes {v : Value} {suffixes : List String}
    (h : readSuffixes v = .sound suffixes) :
    read (.record [("file_suffixes", v)]) =
      .sound { standard with fileSuffixes := suffixes } := by
  apply (Schema.readRecord_eq_sound_iff _ _ _ _ _).mpr
  refine ⟨_, rfl, (readTable_eq_sound_iff _ _).mpr ?_⟩
  refine ⟨?_, Or.inr ⟨v, rfl, h⟩, Or.inl ⟨rfl, rfl⟩, Or.inl ⟨rfl, rfl⟩, Or.inl ⟨rfl, rfl⟩⟩
  simp [Members.names, memberNames]

/-- Suffixes have one normal form. It holds what the entries that are not blank stand for, each once
and in the order in which it is met, and is its own normal form. Settings hold suffixes in it, so that
a search finds the same for them as for what they were made from; and it does not matter whether
suffixes without a comma come as one text or as a list. -/
theorem suffixes_normal_form :
    (∀ raw : List String, ∃ forms : List String,
      List.Forall₂ Suffix.StandsFor (raw.filter fun entry => !Text.isBlankText entry) forms ∧
        (∀ s, s ∈ Suffix.normalize raw ↔ s ∈ forms) ∧
        (Suffix.normalize raw).Pairwise (ComesFirst forms) ∧
        (Suffix.normalize raw).Nodup ∧
        (∀ s ∈ Suffix.normalize raw, Suffix.IsNormal s) ∧
        Suffix.normalize (Suffix.normalize raw) = Suffix.normalize raw) ∧
      (∀ tree directory raw, FileIndex.search tree directory (Suffix.normalize raw) =
        FileIndex.search tree directory raw) ∧
      (∀ given s, read given = .sound s → Suffix.normalize s.fileSuffixes = s.fileSuffixes) ∧
      (∀ tree root overrides s, load tree root overrides = .ok s →
        Suffix.normalize s.fileSuffixes = s.fileSuffixes) ∧
      (∀ (items : List String) (others : Value.Table), (∀ item ∈ items, ',' ∉ item.toList) →
        read (.record (others.put "file_suffixes" (.text (",".intercalate items)))) =
            read (.record (others.put "file_suffixes" (.list (items.map .text)))) ∧
          read (.record [("file_suffixes", .text (",".intercalate items))]) =
            .sound { standard with fileSuffixes := Suffix.normalize items }) := by
  refine ⟨?_, ?_, fun _ _ => normalize_of_read, fun _ _ _ _ => normalize_of_load, ?_⟩
  · intro raw
    refine ⟨raw.filterMap Suffix.normal?, Suffix.forall₂_standsFor raw, ?_, ?_,
      Suffix.nodup_normalize raw, fun s => Suffix.isNormal_of_mem_normalize,
      Suffix.normalize_normalize raw⟩
    · intro s
      rw [Suffix.normalize_eq, List.mem_eraseDups]
    · rw [Suffix.normalize_eq]
      exact pairwise_eraseDups _
  · intro tree directory raw
    unfold FileIndex.search
    rw [Suffix.normalize_normalize]
  · intro items others hitems
    have hjoined := readSuffixes_joined hitems
    refine ⟨?_, read_only_suffixes hjoined⟩
    exact readTable_put_congr others (hjoined.trans (readSuffixes_list items).symm)

/-- One text and one list of suffixes, with capitals that have a form of their own, a suffix given
twice, blanks of several kinds and a blank entry. -/
theorem suffixes_normal_form_mixed :
    ∃ s, read (.record [("file_suffixes", .text "ΣΑΣ, .CSS ,,css,\u00a0.İ")]) = .sound s ∧
      read (.record [("file_suffixes",
        .list [.text "ΣΑΣ", .text " .CSS ", .text "", .text "css", .text "\u00a0.İ"])]) = .sound s ∧
      s.fileSuffixes = [".σας", ".css", ".i\u0307"] ∧
      Suffix.normalize s.fileSuffixes = s.fileSuffixes := by
  obtain ⟨-, -, hread, -, hitems⟩ := suffixes_normal_form
  have hfree : ∀ item ∈ ["ΣΑΣ", " .CSS ", "", "css", "\u00a0.İ"], ',' ∉ item.toList := by decide
  obtain ⟨hsame, hsound⟩ := hitems _ [] hfree
  refine ⟨_, hsound, hsame.symm.trans hsound, by decide +kernel, hread _ _ hsound⟩

end Settings

end LintGateway
