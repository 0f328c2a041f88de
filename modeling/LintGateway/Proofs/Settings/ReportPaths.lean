import LintGateway.Proofs.Import
import LintGateway.Proofs.Path
import LintGateway.Proofs.Settings.Layers
import LintGateway.Proofs.Traversal

/-!
# Where configured reports are looked for

Loading starts the relative report paths of a project at its root, and importing starts the relative
ones of its paths at its base. When reports are imported with the root of the project as the base,
the two come one after the other (`load_anchors_reports`): one path is looked for per configured
one, in their order, and it is the configured path from the root of the project, unless both are
relative. Then the root stands in front of it twice.
-/

set_option autoImplicit false

namespace LintGateway

namespace Import

/-- The paths at which importing looks for the reports of a list. -/
def opened (base : Path) (ps : List Path) : List Path := ps.map base.join

/-- Importing from a base is importing what it opens as it is: nothing else of the base and of the
list counts, neither in what is imported nor in what is said. -/
theorem all_eq_opened (files : FileReader) (tracked : FileLookup) (base : Path) (ps : List Path) :
    all files tracked base ps = all files tracked ⟨.here, []⟩ (opened base ps) := by
  have hissues : issues files tracked base ps =
      issues files tracked ⟨.here, []⟩ (opened base ps) := by
    induction ps with
    | nil => rfl
    | cons p ps ih =>
      show _ = issues files tracked ⟨.here, []⟩ (base.join p :: opened base ps)
      rw [issues, issues, ih, Path.here_join]
  have hnull : (ps.any fun p => (base.join p).holdsNull) =
      (opened base ps).any fun p => (Path.join ⟨.here, []⟩ p).holdsNull := by
    simp [opened, List.any_map, Function.comp_def]
  unfold all
  rw [hissues, hnull]

end Import

namespace Settings

open Import (opened)

/-- The report paths that the member of a table configures: none when there is no such member, those
between the commas of a text, blank ones left out, or those of a sequence of texts. -/
inductive Configures : Option Value → List Path → Prop
  | absent : Configures none []
  | text (s : String) : Configures (some (.text s)) ((splitList s).map Path.ofText)
  | list (texts : List String) :
      Configures (some (.list (texts.map .text))) (texts.map Path.ofText)
  | tuple (texts : List String) :
      Configures (some (.tuple (texts.map .text))) (texts.map Path.ofText)

/-- A path is read from a text. -/
theorem readPath_eq_sound_iff (v : Value) (p : Path) :
    Schema.readPath v = .sound p ↔ ∃ s, v = .text s ∧ p = Path.ofText s := by
  cases v <;> simp [Schema.readPath, eq_comm]

/-- Paths that are read one by one are read from texts. -/
theorem exists_texts_of_each {items : List Value} {ps : List Path}
    (h : Schema.Checked.each Schema.readPath items = .sound ps) :
    ∃ texts : List String, items = texts.map .text ∧ ps = texts.map Path.ofText := by
  rw [Schema.Checked.each_eq_sound_iff] at h
  induction h with
  | nil => exact ⟨[], rfl, rfl⟩
  | cons hfirst _ ih =>
    obtain ⟨s, rfl, rfl⟩ := (readPath_eq_sound_iff _ _).mp hfirst
    obtain ⟨texts, rfl, rfl⟩ := ih
    exact ⟨s :: texts, rfl, rfl⟩

/-- The report paths that a table gives are those that it configures. -/
theorem Gives.configures {t : Value.Table} {ps : List Path}
    (h : Gives t "report_paths" standard.reportPaths readPaths ps) :
    Configures (Members.get? t "report_paths") ps := by
  rcases h with ⟨hnone, rfl⟩ | ⟨v, hv, hread⟩
  · rw [hnone]
    exact .absent
  · rw [hv]
    cases v with
    | text s =>
      cases hread
      exact .text s
    | list items =>
      obtain ⟨texts, rfl, rfl⟩ := exists_texts_of_each hread
      exact .list texts
    | tuple items =>
      obtain ⟨texts, rfl, rfl⟩ := exists_texts_of_each hread
      exact .tuple texts
    | null | bool | int | float | moment | record => cases hread

/-- The settings of a project are loaded from its root, and its reports are imported with the root
as base. What is opened are the configured paths in their order, each of them started at the root
twice. That is the path itself when it is absolute and the path from the root of the project when
the root is absolute; a relative path in a project with a relative root is looked for below the root
as seen from the root, which is another path than the one that is meant, unless the root goes
nowhere. -/
theorem load_anchors_reports {tree : FileTree} {root : Path} {overrides : Value.Table} {s : Settings}
    (h : load tree root overrides = .ok s) :
    ∃ merged configured, table tree root overrides = .ok merged ∧
      Configures (Members.get? merged "report_paths") configured ∧
      s.reportPaths = configured.map root.join ∧
      opened root s.reportPaths = configured.map (fun p => root.join (root.join p)) ∧
      (∀ files tracked, Import.all files tracked root s.reportPaths =
        Import.all files tracked ⟨.here, []⟩ (opened root s.reportPaths)) ∧
      ∀ p ∈ configured,
        (p.isAbsolute = true → root.join (root.join p) = p) ∧
        (root.isAbsolute = true → root.join (root.join p) = root.join p) ∧
        (root.isAbsolute = false → p.isAbsolute = false →
          root.join (root.join p) = ⟨.here, root.segments ++ (root.segments ++ p.segments)⟩ ∧
          (root.join (root.join p) = root.join p ↔ root.segments = [])) := by
  cases htable : table tree root overrides with
  | error e =>
    rw [load_of_table_error htable] at h
    cases h
  | ok merged =>
    obtain ⟨said, hsaid, rfl⟩ := (load_eq_ok_iff htable s).mp h
    refine ⟨merged, said.reportPaths, rfl, hsaid.reportPaths.configures, rfl, ?_,
      fun files tracked => Import.all_eq_opened files tracked root _, ?_⟩
    · exact List.map_map
    · intro p _
      refine ⟨?_, ?_, ?_⟩
      · intro hp
        simp [hp]
      · intro hroot
        exact (Path.join_join_eq_iff root p).mpr (Or.inr (Or.inl hroot))
      · intro hroot hp
        refine ⟨Path.join_join_of_relative hroot hp, ?_⟩
        rw [Path.join_join_eq_iff]
        simp [hroot, hp]

section Example

/-- A project in a directory below the working directory, without documents and with a report. -/
def nestedTree : FileTree :=
  ⟨.directory [("sub", .directory [("r.json", .file Import.blockReport.toUTF8 0o644)])], []⟩

/-- The settings of a project that sets a report path and nothing else. -/
def reportingAt (p : Path) : Settings := { standard with reportPaths := [p] }

/-- With an absolute root the report of the project is opened where it is. -/
theorem load_anchors_reports_absolute :
    load nestedTree ⟨.root, ["sub"]⟩ [("report_paths", .text "r.json")] =
        .ok (reportingAt ⟨.root, ["sub", "r.json"]⟩) ∧
      opened ⟨.root, ["sub"]⟩ [⟨.root, ["sub", "r.json"]⟩] = [⟨.root, ["sub", "r.json"]⟩] := by
  have hload : load nestedTree ⟨.root, ["sub"]⟩ [("report_paths", .text "r.json")] =
      .ok (reportingAt ⟨.root, ["sub", "r.json"]⟩) := rfl
  refine ⟨hload, ?_⟩
  obtain ⟨merged, configured, -, -, hpaths, hopened, -, heach⟩ := load_anchors_reports hload
  have hsame : opened ⟨.root, ["sub"]⟩ (reportingAt ⟨.root, ["sub", "r.json"]⟩).reportPaths =
      (reportingAt ⟨.root, ["sub", "r.json"]⟩).reportPaths := by
    rw [hopened, hpaths]
    exact List.map_congr_left fun p hp => (heach p hp).2.1 rfl
  exact hsame

/-- With a relative root the report of the project is there and is missed: it is looked for in a
directory of the same name below the root. -/
theorem relative_root_misses_report :
    load nestedTree ⟨.here, ["sub"]⟩ [("report_paths", .text "r.json")] =
        .ok (reportingAt ⟨.here, ["sub", "r.json"]⟩) ∧
      nestedTree.read (Path.join ⟨.here, ["sub"]⟩ (Path.ofText "r.json")) =
        .ok Import.blockReport.toUTF8 ∧
      opened ⟨.here, ["sub"]⟩ [⟨.here, ["sub", "r.json"]⟩] ≠
        [Path.join ⟨.here, ["sub"]⟩ (Path.ofText "r.json")] ∧
      ∀ tracked, Import.all nestedTree tracked ⟨.here, ["sub"]⟩ [⟨.here, ["sub", "r.json"]⟩] =
        .ok ⟨.ok [], [Import.skippedLine ⟨.here, ["sub", "sub", "r.json"]⟩ (.file .missing)]⟩ := by
  refine ⟨rfl, rfl, ?_, fun _ => rfl⟩
  decide

end Example

end Settings

end LintGateway
