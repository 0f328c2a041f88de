import LintGateway.Command.Runner
import LintGateway.Proofs.FileTree.LookUp
import LintGateway.Proofs.Path
import LintGateway.Proofs.Traversal

/-!
# Which file a command executes

A command is started in a directory of its own, and the name of the file to start is followed from
there. `Executes` says which file that is: the first of those tried that can be started. A command
that has a result has executed one (`exists_executes_of_run`).

The name that is tried is made on the host, which puts the directory of the run in front of a
relative path. Followed from that directory again, it leads where the host sees it when it starts at
a root or the directory of the run is the one of the host (`Executes.locate_eq`), and otherwise it
goes through the directory twice (`Executes.locate_seenFrom`); without a slash left in it, it is
searched for as a bare name (`Executes.exists_searched`).
-/

set_option autoImplicit false

namespace LintGateway

open FileTree (IsPlace)

namespace CommandRunner

variable {runner : CommandRunner} {host : Host} {command arguments files : List String}
  {directory : Path} {here place : List String}

/-- The search list of the environment of a command. -/
def searchList? (runner : CommandRunner) (host : Host) : Option String :=
  Members.get? (runner.environmentOn host) Host.searchVariable

/-- A command that is run in a directory executes the file at a place: the name that it is started
with leads there from that directory, and no name tried before can be started. -/
inductive Executes (runner : CommandRunner) (host : Host) (command : List String)
    (directory : Path) (place : List String) : Prop
  | intro {here arguments before after : List String} {file name : String}
      {program : Program × List String}
      (hhere : directoryPlace host.tree directory = .ok here)
      (hlocate : Command.locate host command directory (runner.searchList? host) =
        .ok (file :: arguments))
      (hnames : candidates (runner.environmentOn host) file = before ++ name :: after)
      (hbefore : ∀ other ∈ before, ∃ e, host.start here other arguments = .error e)
      (hstart : host.start here name arguments = .ok program)
      (hplace : host.tree.named here name = .ok place)

/-- A place that is a directory holds the entries of one. -/
theorem exists_of_directoryPlace {tree : FileTree}
    (h : directoryPlace tree directory = .ok here) :
    ∃ entries, tree.root.get? here = some (.directory entries) := by
  unfold directoryPlace at h
  split at h
  · cases h
  · split at h
    · rename_i hentries
      cases h
      exact ⟨_, hentries⟩
    · cases h

/-! ## A command with a result -/

/-- A program that starts is at some place. -/
theorem exists_named_of_start {file : String} {program : Program × List String}
    (h : host.start here file arguments = .ok program) :
    ∃ place, host.tree.named here file = .ok place := by
  unfold Host.start Host.startWithin at h
  cases hnamed : host.tree.named here file with
  | ok place => exact ⟨place, rfl⟩
  | error e =>
    rw [hnamed] at h
    cases h

/-- The file that starts is the first of the list that does, and those before it fail. -/
theorem exists_of_startFirst {known : Option StartError} {program : Program × List String}
    (h : startFirst host here arguments known files = .ok program) :
    ∃ before name after, files = before ++ name :: after ∧
      (∀ other ∈ before, ∃ e, host.start here other arguments = .error e) ∧
      host.start here name arguments = .ok program := by
  -- the error of the names before, `known`, only counts when no name is left
  induction files generalizing known with
  | nil => cases h
  | cons file files ih =>
    unfold startFirst at h
    cases hstart : host.start here file arguments with
    | ok first =>
      rw [hstart] at h
      cases h
      exact ⟨[], file, files, rfl, by simp, hstart⟩
    | error e =>
      rw [hstart] at h
      obtain ⟨before, name, after, rfl, hbefore, hname⟩ := ih h
      refine ⟨file :: before, name, after, rfl, ?_, hname⟩
      exact List.forall_mem_cons.mpr ⟨⟨e, hstart⟩, hbefore⟩

/-- A command that is executed was started from its directory, as the first of its candidates that
can be. -/
theorem exists_of_execute {file : String} {ended : Shell.Traffic × Shell.Ending}
    (h : runner.execute host file arguments directory = .ok ended) :
    ∃ here program, directoryPlace host.tree directory = .ok here ∧
      startFirst host here arguments none (candidates (runner.environmentOn host) file) =
        .ok program := by
  unfold execute at h
  obtain ⟨here, hhere, h⟩ := (bind_eq_ok_iff _ _ _).mp h
  obtain ⟨program, hprogram, -⟩ := (bind_eq_ok_iff _ _ _).mp h
  refine ⟨here, program, ?_, hprogram⟩
  cases hdirectory : directoryPlace host.tree directory with
  | ok place =>
    rw [hdirectory] at hhere
    rw [Except.ok.inj hhere]
  | error e =>
    rw [hdirectory] at hhere
    cases hhere

/-- A command that has come to a result has executed a file. -/
theorem exists_executes_of_run {result : ProcessResult}
    (h : (runner.run host command directory).value = .ok result) :
    ∃ place, Executes runner host command directory place := by
  unfold run at h
  rw [← searchList?] at h
  cases hlocate : Command.locate host command directory (runner.searchList? host) with
  | error e =>
    simp only [hlocate] at h
    cases h
  | ok located =>
    cases located with
    | nil =>
      simp only [hlocate] at h
      cases h
    | cons file arguments =>
      simp only [hlocate, Logged.value_bind] at h
      split at h
      · cases h
      · split at h
        · cases h
        · cases h
        · rename_i hexecute _
          obtain ⟨here, program, hhere, hfirst⟩ := exists_of_execute hexecute
          obtain ⟨before, name, after, hnames, hbefore, hstart⟩ := exists_of_startFirst hfirst
          obtain ⟨place, hplace⟩ := exists_named_of_start hstart
          exact ⟨place, .intro hhere hlocate hnames hbefore hstart hplace⟩

/-! ## A command given by a path -/

/-- A command with a slash is taken relative to the directory. -/
theorem locate_of_slash {head : String} (h : '/' ∈ head.toList) (search : Option String) :
    Command.locate host (head :: arguments) directory search =
      .ok ((directory.join (Path.ofText head)).toText :: arguments) := by
  unfold Command.locate
  simp only
  cases habsolute : (Path.ofText head).isAbsolute with
  | true => rw [if_pos rfl, Path.join_of_isAbsolute habsolute]
  | false => rw [if_neg Bool.false_ne_true, if_pos (List.contains_iff_mem.mpr h)]

/-- A file with a slash is its only candidate. -/
theorem candidates_of_slash {environment : Members String} {file : String}
    (h : file.toList.contains '/' = true) : candidates environment file = [file] := by
  unfold candidates
  rw [if_pos h]

section Path

variable {head : String} {p : Path}

/-- The name by which the file of a command is looked for first leads there from its directory. -/
theorem Executes.exists_candidate (hslash : '/' ∈ head.toList)
    (h : Executes runner host (head :: arguments) directory place)
    (hhere : directoryPlace host.tree directory = .ok here) :
    ∃ name ∈ candidates (runner.environmentOn host) (directory.join (Path.ofText head)).toText,
      host.tree.named here name = .ok place := by
  obtain ⟨hother, hlocate, hnames, -, -, hplace⟩ := h
  rw [hhere] at hother
  obtain rfl := Except.ok.inj hother
  rw [locate_of_slash hslash] at hlocate
  obtain ⟨rfl, -⟩ := List.cons.inj (Except.ok.inj hlocate)
  refine ⟨_, ?_, hplace⟩
  rw [hnames]
  exact List.mem_append_right _ List.mem_cons_self

/-- Where the path of a command keeps a slash, it is followed from the directory of the command. -/
theorem Executes.locate_seenFrom (hslash : '/' ∈ head.toList) (hplain : directory.IsPlain)
    (h : Executes runner host (head :: arguments) directory place)
    (hhere : directoryPlace host.tree directory = .ok here)
    (hpath : (directory.join (Path.ofText head)).isAbsolute = true ∨
      2 ≤ (directory.join (Path.ofText head)).segments.length) :
    (host.tree.seenFrom here).locate (directory.join (Path.ofText head)) false = .ok place := by
  obtain ⟨name, hname, hplace⟩ := h.exists_candidate hslash hhere
  rw [candidates_of_slash (Path.contains_slash_toText hpath), List.mem_singleton] at hname
  have hraw : Path.ofRawText (directory.join (Path.ofText head)).toText =
      directory.join (Path.ofText head) := by
    refine Path.ofRawText_toText (hplain.join (Path.isPlain_ofText head)) ?_
    exact hpath.imp_right fun hlength hnil => by
      rw [hnil] at hlength
      cases hlength
  rw [hname, FileTree.named, hraw] at hplace
  exact hplace

/-- So it is executed where the host sees it when it starts at a root, or when the directory of the
command is the one of the host. -/
theorem Executes.locate_eq (hslash : '/' ∈ head.toList) (hplain : directory.IsPlain)
    (h : Executes runner host (head :: arguments) directory place)
    (hhere : directoryPlace host.tree directory = .ok here)
    (hpath : (directory.join (Path.ofText head)).isAbsolute = true ∨
      here = host.tree.here ∧ 2 ≤ (directory.join (Path.ofText head)).segments.length) :
    host.tree.locate (directory.join (Path.ofText head)) false = .ok place := by
  have hseen := h.locate_seenFrom hslash hplain hhere (hpath.imp_right And.right)
  rcases hpath with habsolute | ⟨rfl, -⟩
  · rwa [FileTree.locate_seenFrom_of_isAbsolute habsolute] at hseen
  · exact hseen

/-- A path that has no slash left is searched for by its name. -/
theorem Executes.exists_searched (hslash : '/' ∈ head.toList) (hplain : directory.IsPlain)
    (h : Executes runner host (head :: arguments) directory place)
    (hhere : directoryPlace host.tree directory = .ok here)
    (hrelative : (directory.join (Path.ofText head)).isAbsolute = false)
    (hshort : (directory.join (Path.ofText head)).segments.length < 2) :
    ∃ searched ∈ Text.split ':' ((runner.searchList? host).getD Command.standardSearch),
      host.tree.named here
        (Host.fileIn searched (directory.join (Path.ofText head)).toText) = .ok place := by
  obtain ⟨name, hname, hplace⟩ := h.exists_candidate hslash hhere
  have hplainJoin := hplain.join (Path.isPlain_ofText head)
  unfold candidates at hname
  rw [Path.toText_of_short hrelative hplainJoin hshort, if_neg Bool.false_ne_true] at hname
  obtain ⟨searched, hsearched, rfl⟩ := List.mem_map.mp hname
  exact ⟨searched, hsearched, hplace⟩

end Path

end CommandRunner

end LintGateway
