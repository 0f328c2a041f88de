import LintGateway.Proofs.Occurrences
import LintGateway.Proofs.Path.Spelling
import LintGateway.Proofs.Traversal
import LintGateway.Tracked.FileIndex
import Mathlib.Data.Set.Card

/-!
# Registered files

A list of absolute paths is registered path by path; a path that is known already keeps its place.
What is then found under a text, how many files there are and in which order they stand is said by
the texts alone: two of them are one file when they denote the same path, whatever filler there is
in them (`ofPaths_finds_same_path`).
-/

set_option autoImplicit false

namespace LintGateway.FileIndex

open LintGateway.Path (SamePath IsNormalText)

/-- The file of an absolute path. -/
def fileAt (p : Path) (h : p.isAbsolute = true) : InputFile :=
  ⟨p, InputFile.languages.lookup (Text.lower p.suffix), h⟩

/-- An absolute path is the path of a file. -/
theorem fileOfPath_of_isAbsolute {p : Path} (h : p.isAbsolute = true) :
    fileOfPath p = .sound (fileAt p h) := by
  unfold fileOfPath
  simp only [dif_pos h]
  rfl

/-- A file that is registered comes last, unless its path is there already. -/
theorem paths_register (index : FileIndex) (f : InputFile) :
    (index.register f).files.map InputFile.path =
      if f.path ∈ index.files.map InputFile.path then index.files.map InputFile.path
      else index.files.map InputFile.path ++ [f.path] :=
  paths_set f index.files

/-- Absolute paths are all registered, each at its first place. -/
theorem exists_ofPaths {paths : List Path} (h : ∀ p ∈ paths, p.isAbsolute = true) :
    ∃ index, ofPaths paths = .ok index ∧ index.files.map InputFile.path = paths.eraseDups := by
  induction paths using List.reverseRecOn with
  | nil => exact ⟨empty, rfl, by simp [empty]⟩
  | append_singleton paths p ih =>
    have hp : p.isAbsolute = true := h p (by simp)
    obtain ⟨index, hindex, hfiles⟩ := ih fun q hq => h q (List.mem_append_left [p] hq)
    refine ⟨index.register (fileAt p hp), ?_, ?_⟩
    · unfold ofPaths at hindex ⊢
      rw [List.foldlM_append, hindex]
      simp only [List.foldlM_cons, List.foldlM_nil, fileOfPath_of_isAbsolute hp]
      rfl
    · rw [paths_register, hfiles, eraseDups_append_singleton]
      simp only [List.mem_eraseDups]
      rfl

/-- Texts are registered as the paths that are read from them. -/
theorem ofValues_texts (texts : List String) :
    ofValues (texts.map Value.text) = (ofPaths (texts.map Path.ofText)).mapError .invalid := by
  unfold ofValues ofPaths
  generalize empty = index
  induction texts generalizing index with
  | nil => rfl
  | cons text texts ih =>
    simp only [List.map_cons, List.foldlM_cons]
    cases (fileOfPath (Path.ofText text)).toExcept with
    | error faults => rfl
    | ok f => exact ih (index.register f)

variable {index : FileIndex}

/-- A path is found exactly when a file has it. -/
theorem find?_eq_some_iff {p : Path} {f : InputFile} :
    index.find? p = some f ↔ f ∈ index.files ∧ f.path = p :=
  find?_eq_some_iff_of_nodup index.paths_nodup

/-- A path is found exactly when it is among those of the files. -/
theorem exists_find?_iff {p : Path} :
    (∃ f, index.find? p = some f) ↔ p ∈ index.files.map InputFile.path := by
  simp only [find?_eq_some_iff, List.mem_map]

/-- An index has the paths of its files. -/
theorem has_eq_true_iff {p : Path} :
    index.has p = true ↔ p ∈ index.files.map InputFile.path := by
  simp [has]

/-- A file of a plain path is found by the text of its path. -/
theorem get?_toText {f : InputFile} (hmem : f ∈ index.files) (hplain : f.path.IsPlain) :
    index.get? f.toText = some f := by
  unfold get? InputFile.toText
  rw [Path.ofText_toText hplain (Or.inl f.isAbsolute), find?_eq_some_iff]
  exact ⟨hmem, rfl⟩

/-! ## Files and the texts that name them -/

/-- The first of the texts to name one of two files names `f`. -/
def IsNamedFirst (texts : List String) (f g : InputFile) : Prop :=
  ∃ before text after, texts = before ++ text :: after ∧ SamePath text f.toText ∧
    ∀ other ∈ before ++ [text], ¬ SamePath other g.toText

/-- The texts that denote the same path as `s`. -/
def spellings (s : String) : Set String := {t | SamePath s t}

section

variable {texts : List String}
  (hpaths : index.files.map InputFile.path = (texts.map Path.ofText).eraseDups)

include hpaths

/-- The paths of the files are those of the texts. -/
theorem mem_paths_iff {p : Path} :
    p ∈ index.files.map InputFile.path ↔ ∃ text ∈ texts, Path.ofText text = p := by
  rw [hpaths, List.mem_eraseDups, List.mem_map]

/-- A text is found exactly when one of the texts is of the same path. -/
theorem exists_get?_iff (s : String) :
    (∃ f, index.get? s = some f) ↔ ∃ text ∈ texts, SamePath text s := by
  unfold get?
  simp only [exists_find?_iff, mem_paths_iff hpaths, Path.samePath_iff]

/-- The text of a registered file denotes its path. -/
theorem ofText_toText_of_mem {f : InputFile} (hf : f ∈ index.files) :
    Path.ofText f.toText = f.path := by
  obtain ⟨text, -, htext⟩ := (mem_paths_iff hpaths).mp (List.mem_map.mpr ⟨f, hf, rfl⟩)
  have hplain : f.path.IsPlain := htext ▸ Path.isPlain_ofText text
  exact Path.ofText_toText hplain (Or.inl f.isAbsolute)

/-- Files stand in the order in which they are first named. -/
theorem pairwise_isNamedFirst : index.files.Pairwise (IsNamedFirst texts) := by
  have horder := pairwise_eraseDups (texts.map Path.ofText)
  rw [← hpaths, List.pairwise_map] at horder
  refine horder.imp_of_mem ?_
  rintro f g hf hg ⟨before, after, hsplit, hnew⟩
  obtain ⟨pre, post, rfl, rfl, hpost⟩ := List.map_eq_append_iff.mp hsplit
  obtain ⟨text, rest, rfl, htext, rfl⟩ := List.map_eq_cons_iff.mp hpost
  refine ⟨pre, text, rest, rfl, ?_, ?_⟩
  · rw [Path.samePath_iff, ofText_toText_of_mem hpaths hf, htext]
  · intro other hother hsame
    rw [Path.samePath_iff, ofText_toText_of_mem hpaths hg] at hsame
    apply hnew
    rw [← htext, ← hsame]
    simpa using List.mem_map.mpr ⟨other, hother, rfl⟩

/-- There are as many files as paths that the texts denote. -/
theorem size_eq_ncard : index.size = (spellings '' {text | text ∈ texts}).ncard := by
  have hspellings : ∀ s, spellings s = {t | Path.ofText t = Path.ofText s} := by
    intro s
    ext t
    simp only [spellings, Set.mem_ofPred_eq, Path.samePath_iff, eq_comm]
  have hclasses : spellings '' {text | text ∈ texts} =
      (fun p => {t | Path.ofText t = p}) '' {p | p ∈ index.files.map InputFile.path} := by
    ext class_
    simp only [Set.mem_image, Set.mem_ofPred_eq, mem_paths_iff hpaths, hspellings]
    constructor
    · rintro ⟨text, htext, rfl⟩
      exact ⟨_, ⟨text, htext, rfl⟩, rfl⟩
    · rintro ⟨_, ⟨text, htext, rfl⟩, rfl⟩
      exact ⟨text, htext, rfl⟩
  -- the class of a registered path holds a text that denotes it, so no two of them share theirs
  have hinjective : Set.InjOn (fun p => {t | Path.ofText t = p})
      {p | p ∈ index.files.map InputFile.path} := by
    intro p hp q _ heq
    obtain ⟨text, -, htext⟩ := (mem_paths_iff hpaths).mp hp
    have hmem : Path.ofText text = q := (Set.ext_iff.mp heq text).mp htext
    exact htext.symm.trans hmem
  classical
  rw [hclasses, hinjective.ncard_image, ← List.coe_toFinset, Set.ncard_coe_finset,
    List.toFinset_card_of_nodup index.paths_nodup, List.length_map, size]

end

/-- Absolute paths given as texts are all registered, the texts as such or read as paths. A text then
finds a file just when one of them denotes the same path, so none that is relative does, and the text
of the file is that of the path without filler. Data names a tracked file when it is a text that
finds one, and a path when its file is there. There are as many files as paths that the texts denote,
in the order in which they are first named. -/
theorem ofPaths_finds_same_path (texts : List String)
    (habsolute : ∀ text ∈ texts, text.toList.head? = some '/') :
    ∃ index, ofValues (texts.map Value.text) = .ok index ∧
      ofPaths (texts.map Path.ofText) = .ok index ∧
      (∀ s, (∃ f, index.get? s = some f) ↔ ∃ text ∈ texts, SamePath text s) ∧
      (∀ s, s.toList.head? ≠ some '/' → index.get? s = none) ∧
      (∀ s f, index.get? s = some f → IsNormalText s f.toText) ∧
      (∀ v, index.contains v = true ↔ ∃ s f, v = .text s ∧ index.get? s = some f) ∧
      (∀ s, index.has (Path.ofText s) = (index.get? s).isSome) ∧
      index.size = (spellings '' {text | text ∈ texts}).ncard ∧
      index.files.Pairwise (IsNamedFirst texts) := by
  have hroots : ∀ p ∈ texts.map Path.ofText, p.isAbsolute = true := by
    intro p hp
    obtain ⟨text, htext, rfl⟩ := List.mem_map.mp hp
    exact (Path.isAbsolute_ofText_iff text).mpr (habsolute text htext)
  obtain ⟨index, hindex, hpaths⟩ := exists_ofPaths hroots
  have hhas : ∀ s, index.has (Path.ofText s) = (index.get? s).isSome := by
    intro s
    rw [Bool.eq_iff_iff, has_eq_true_iff, ← exists_find?_iff, Option.isSome_iff_exists]
    rfl
  refine ⟨index, ?_, hindex, exists_get?_iff hpaths, ?_, ?_, ?_, hhas, size_eq_ncard hpaths,
    pairwise_isNamedFirst hpaths⟩
  · rw [ofValues_texts, hindex]
    rfl
  · intro s hrelative
    rw [Option.eq_none_iff_forall_ne_some]
    intro f hf
    obtain ⟨-, hpath⟩ := find?_eq_some_iff.mp hf
    have habs := f.isAbsolute
    rw [hpath, Path.isAbsolute_ofText_iff] at habs
    exact hrelative habs
  · intro s f hf
    obtain ⟨-, hpath⟩ := find?_eq_some_iff.mp hf
    rw [Path.isNormalText_iff (hpath ▸ f.isAbsolute), ← hpath]
    rfl
  · intro v
    cases v with
    | text s => simp [contains, hhas, Option.isSome_iff_exists]
    | _ => simp [contains]

/-- Three texts for style sheets, of which the one with two slashes in front names a file of its own
and the other two name one file. -/
def threeTexts : List String := ["/p/./a.css", "//p/a.css", "///p//a.css/"]

/-- The file that two of the texts name is found by a third text of its path. -/
theorem ofPaths_finds_same_path_threeTexts :
    ∃ index, ofPaths (threeTexts.map Path.ofText) = .ok index ∧
      ∃ f, index.get? "/p/a.css/." = some f ∧ IsNormalText "/p/a.css/." f.toText := by
  have habsolute : ∀ text ∈ threeTexts, text.toList.head? = some '/' := by
    simp only [threeTexts, List.forall_mem_cons]
    exact ⟨rfl, rfl, rfl, nofun⟩
  obtain ⟨index, -, hindex, hfound, -, hnormal, -⟩ := ofPaths_finds_same_path threeTexts habsolute
  have hsame : SamePath "/p/./a.css" "/p/a.css/." := Path.samePath_iff.mpr (by decide +kernel)
  have hmem : "/p/./a.css" ∈ threeTexts := by simp [threeTexts]
  obtain ⟨f, hf⟩ := (hfound "/p/a.css/.").mpr ⟨"/p/./a.css", hmem, hsame⟩
  exact ⟨index, hindex, f, hf, hnormal _ f hf⟩

end LintGateway.FileIndex
