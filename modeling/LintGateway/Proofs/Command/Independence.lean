import LintGateway.Proofs.Command.Started
import Mathlib.Data.Fintype.EquivFin

/-!
# Which hosts a look-up tells apart

The environment of a command may be given to it apart from that of the host. A bare name is still
looked up by the host: a relative directory of the search list starts where the host is, and without
a search list in the environment given, the one of the host counts. So the result is the same on all
hosts with one file system exactly when these two make no difference there (`Settled`,
`locate_sameEverywhere_iff`): without a search list the name is in no directory at all, and with one
a relative directory that has the name, from wherever, comes after an absolute one that has it.

Two searches agree as long as each accepts what the other finds, and a file of an absolute path is
accepted by every host or by none. Where a host does find a relative file or finds one through its
own search list, there is another host that finds nothing there: one whose directory has been
removed, or one with nothing to search.
-/

set_option autoImplicit false

namespace LintGateway

namespace FileTree

variable {t u : FileTree} {p : Path}

/-- At some place of a tree there is nothing. -/
theorem exists_get?_eq_none (root : Node) : ∃ place, root.get? place = none := by
  cases root with
  | file | link => exact ⟨[""], rfl⟩
  | directory entries =>
    obtain ⟨name, hname⟩ := Infinite.exists_notMem_finset (Members.names entries).toFinset
    refine ⟨[name], ?_⟩
    rw [Node.get?, Members.get?_eq_none_iff.mpr (fun hmem => hname (List.mem_toFinset.mpr hmem))]
    rfl

/-- An absolute path is executable or not by the root of the tree alone. -/
theorem isExecutable_eq_of_isAbsolute (hroot : t.root = u.root) (h : p.isAbsolute = true) :
    t.isExecutable p = u.isExecutable p := by
  have hseen : u = t.seenFrom u.here := by rw [seenFrom, hroot]
  unfold isExecutable node
  rw [hseen, locate_seenFrom_of_isAbsolute h]
  rfl

/-- From a directory that has been removed nothing is reached by a relative path. -/
theorem isExecutable_of_removed (hhere : t.root.get? t.here = none) (h : p.isAbsolute = false) :
    t.isExecutable p = false := by
  have hturn : ∀ name, t.turn t.here name = .stop .notDirectory := by
    intro name
    unfold turn
    rw [hhere]
  have hplace : ∀ place, t.locate p false = .ok place → t.root.get? place = none := by
    intro place hlocate
    obtain ⟨-, hlocates⟩ := locate_eq_ok_iff.mp hlocate
    rw [start, if_neg (Bool.eq_false_iff.mp h)] at hlocates
    generalize p.segments = names at hlocates
    cases hlocates with
    | arrive => exact hhere
    | go hgo => cases (hturn _).symm.trans hgo
    | link hlink => cases (hturn _).symm.trans hlink
  unfold isExecutable node
  cases hlocate : t.locate p false with
  | error e => rfl
  | ok place => simp only [hplace place hlocate]

end FileTree

namespace Host

/-- A directory of a search list has a program of a name, as seen in a tree. -/
def HasProgram (t : FileTree) (directory name : String) : Prop :=
  t.isExecutable (Path.ofText (fileIn directory name)) = true

variable {t u : FileTree} {search name file : String}

/-- No program has an empty name or that of the directory itself. -/
theorem findProgram_of_nameless (h : name = "" ∨ name = ".") : findProgram t search name = none := by
  unfold findProgram
  rcases h with rfl | rfl <;> simp

/-- A search finds the program in the first directory of its list that has one. -/
theorem findProgram_eq_some_iff (hname : ¬ (name = "" ∨ name = ".")) :
    findProgram t search name = some file ↔ search ≠ "" ∧ ∃ before listed after,
      Text.split ':' search = before ++ listed :: after ∧ fileIn listed name = file ∧
        HasProgram t listed name ∧ ∀ earlier ∈ before, ¬ HasProgram t earlier name := by
  unfold findProgram
  by_cases hsearch : search = ""
  · simp [hsearch]
  rw [if_neg (by simpa [hsearch] using hname), List.find?_eq_some_iff_append]
  constructor
  · rintro ⟨hfile, before, after, hsplit, hbefore⟩
    obtain ⟨directories, rest, hlist, rfl, hrest⟩ := List.map_eq_append_iff.mp hsplit
    obtain ⟨listed, others, rfl, rfl, -⟩ := List.map_eq_cons_iff.mp hrest
    refine ⟨hsearch, directories, listed, others, hlist, rfl, hfile, ?_⟩
    intro earlier hmem
    simpa [HasProgram] using hbefore _ (List.mem_map.mpr ⟨earlier, hmem, rfl⟩)
  · rintro ⟨-, before, listed, after, hlist, rfl, hlisted, hbefore⟩
    refine ⟨hlisted, before.map fun directory => fileIn directory name,
      after.map fun directory => fileIn directory name, by rw [hlist]; simp, ?_⟩
    intro earlier hmem
    obtain ⟨directory, hdirectory, rfl⟩ := List.mem_map.mp hmem
    simpa [HasProgram] using hbefore directory hdirectory

/-- The files of a bare name are absolute in the absolute directories. -/
theorem isAbsolute_fileIn (hbare : '/' ∉ name.toList) (directory : String) :
    (Path.ofText (fileIn directory name)).isAbsolute = (Path.ofText directory).isAbsolute := by
  rw [Bool.eq_iff_iff, Path.isAbsolute_ofText_iff, Path.isAbsolute_ofText_iff]
  by_cases hempty : directory = ""
  · have hhead : name.toList.head? ≠ some '/' := fun h => hbare (List.mem_of_mem_head? h)
    simp [hempty, fileIn, hhead]
  · obtain ⟨c, cs, hchars⟩ : ∃ c cs, directory.toList = c :: cs :=
      List.exists_cons_of_ne_nil fun hnil => hempty (String.toList_eq_nil_iff.mp hnil)
    unfold fileIn
    split <;> simp [hchars]

/-- A program that is found is in one of the directories of the list. -/
theorem exists_of_findProgram (h : findProgram t search name = some file) :
    ∃ listed ∈ Text.split ':' search, fileIn listed name = file ∧ HasProgram t listed name := by
  by_cases hname : name = "" ∨ name = "."
  · rw [findProgram_of_nameless hname] at h
    cases h
  · obtain ⟨-, before, listed, after, hlist, hfile, hlisted, -⟩ :=
      (findProgram_eq_some_iff hname).mp h
    exact ⟨listed, by rw [hlist]; simp, hfile, hlisted⟩

/-- With one file system, two searches agree as long as what they find starts at a root. -/
theorem findProgram_eq_of_isAbsolute (hroot : t.root = u.root)
    (ht : ∀ file, findProgram t search name = some file → (Path.ofText file).isAbsolute = true)
    (hu : ∀ file, findProgram u search name = some file → (Path.ofText file).isAbsolute = true) :
    findProgram t search name = findProgram u search name := by
  unfold findProgram at ht hu ⊢
  split
  · rfl
  · rename_i hsearched
    rw [if_neg hsearched] at ht hu
    refine find?_eq_of_hits ?_ ?_
    · intro file hfile
      have hfound := List.find?_some hfile
      rwa [FileTree.isExecutable_eq_of_isAbsolute hroot (ht file hfile)] at hfound
    · intro file hfile
      have hfound := List.find?_some hfile
      rwa [← FileTree.isExecutable_eq_of_isAbsolute hroot (hu file hfile)] at hfound

end Host

namespace CommandRunner

variable {runner : CommandRunner} {environment : Members String} {root : Node} {name : String}
  {arguments : List String} {directory : Path} {host : Host}

/-- A command is looked up alike on all hosts with one file system, in whatever directory they are
and whatever variables they have themselves. -/
def SameEverywhere (runner : CommandRunner) (root : Node) (command : List String)
    (directory : Path) : Prop :=
  ∀ a b : Host, a.tree.root = root → b.tree.root = root →
    Command.locate a command directory (runner.searchList? a) =
      Command.locate b command directory (runner.searchList? b)

/-- A file found for a name is one that every host with the file system would find: it is found
through a search list that is given, and its path is absolute. -/
def FoundAsGiven (environment : Members String) (host : Host) (name : String) : Prop :=
  ∀ file, Command.findProgram host (Members.get? environment Host.searchVariable) name =
      some file →
    (Members.get? environment Host.searchVariable).isSome = true ∧
      (Path.ofText file).isAbsolute = true

/-- A child that is given an environment looks for programs along the list in that. -/
theorem searchList?_of_environment (h : runner.environment = some environment) (host : Host) :
    runner.searchList? host = Members.get? environment Host.searchVariable := by
  rw [searchList?, environmentOn, h]
  rfl

/-- A bare name is looked up along the search list. -/
theorem locate_of_bare (hbare : '/' ∉ name.toList) (search : Option String) :
    Command.locate host (name :: arguments) directory search =
      match Command.findProgram host search name with
      | some file => .ok (file :: arguments)
      | none =>
        .error ⟨name :: arguments, "executable '" ++ name ++ "' was not found on PATH"⟩ := by
  have hrelative : ¬ (Path.ofText name).isAbsolute = true := by
    rw [Path.isAbsolute_ofText_iff]
    intro hhead
    exact hbare (List.mem_of_mem_head? hhead)
  have hslash : ¬ name.toList.contains '/' = true := fun h => hbare (List.contains_iff_mem.mp h)
  unfold Command.locate
  cases hfound : Command.findProgram host search name <;>
    simp only [if_neg hrelative, if_neg hslash, hfound]

/-- Only the file that is found for a bare name can make a difference. -/
theorem sameEverywhere_iff_of_bare (henvironment : runner.environment = some environment)
    (hbare : '/' ∉ name.toList) :
    SameEverywhere runner root (name :: arguments) directory ↔
      ∀ a b : Host, a.tree.root = root → b.tree.root = root →
        Command.findProgram a (Members.get? environment Host.searchVariable) name =
          Command.findProgram b (Members.get? environment Host.searchVariable) name := by
  unfold SameEverywhere
  simp only [searchList?_of_environment henvironment, locate_of_bare hbare]
  refine forall₄_congr fun a b _ _ => ?_
  cases Command.findProgram a (Members.get? environment Host.searchVariable) name <;>
    cases Command.findProgram b (Members.get? environment Host.searchVariable) name <;> simp

/-- What all hosts with a file system find alike is found as the environment gives it. -/
theorem foundAsGiven_of_same
    (h : ∀ a b : Host, a.tree.root = root → b.tree.root = root →
      Command.findProgram a (Members.get? environment Host.searchVariable) name =
        Command.findProgram b (Members.get? environment Host.searchVariable) name)
    (hroot : host.tree.root = root) : FoundAsGiven environment host name := by
  intro file hfile
  constructor
  · -- without a search list given, a host with nothing to search finds nothing
    rw [Option.isSome_iff_ne_none]
    intro hnone
    let idle : Host := ⟨⟨root, []⟩, [], [(Host.searchVariable, "")]⟩
    have hidle := h host idle hroot rfl
    rw [hfile, hnone] at hidle
    cases hidle
  · -- a relative file is not found from a directory that has been removed
    by_contra hrelative
    obtain ⟨place, hplace⟩ := FileTree.exists_get?_eq_none root
    let stray : Host := ⟨⟨root, place⟩, [], host.environment⟩
    have hstray := h host stray hroot rfl
    rw [hfile] at hstray
    obtain ⟨listed, -, rfl, hlisted⟩ := Host.exists_of_findProgram hstray.symm
    have hremoved : stray.tree.isExecutable (Path.ofText (Host.fileIn listed name)) = false :=
      FileTree.isExecutable_of_removed hplace (Bool.eq_false_iff.mpr hrelative)
    cases hlisted.symm.trans hremoved

/-- Hosts that find a name as the environment gives it find it alike. -/
theorem findProgram_eq_of_foundAsGiven {a b : Host} (hroot : a.tree.root = b.tree.root)
    (ha : FoundAsGiven environment a name) (hb : FoundAsGiven environment b name) :
    Command.findProgram a (Members.get? environment Host.searchVariable) name =
      Command.findProgram b (Members.get? environment Host.searchVariable) name := by
  unfold FoundAsGiven at ha hb
  cases hsearch : Members.get? environment Host.searchVariable with
  | some search =>
    rw [hsearch] at ha hb
    exact Host.findProgram_eq_of_isAbsolute hroot (fun file h => (ha file h).2)
      (fun file h => (hb file h).2)
  | none =>
    -- nothing is given, so neither host finds anything
    rw [hsearch] at ha hb
    have hnone : ∀ {host : Host},
        (∀ file, Command.findProgram host none name = some file →
          (none : Option String).isSome = true ∧ (Path.ofText file).isAbsolute = true) →
        Command.findProgram host none name = none := by
      intro host h
      rw [Option.eq_none_iff_forall_ne_some]
      intro file hfile
      cases (h file hfile).1
    rw [hnone ha, hnone hb]

/-- A name is looked up by the environment given and the file system alone: it is no name, or there
is nothing to search, or there is a search list and in it a relative directory that has the name,
from wherever, comes after an absolute one that has it, or there is none and no directory has the
name. -/
inductive Settled (environment : Members String) (root : Node) (name : String) : Prop
  | nameless (h : name = "" ∨ name = ".")
  | empty (h : Members.get? environment Host.searchVariable = some "")
  | given {search : String} (h : Members.get? environment Host.searchVariable = some search)
      (hfirst : ∀ here before listed after, Text.split ':' search = before ++ listed :: after →
        (Path.ofText listed).isAbsolute = false → Host.HasProgram ⟨root, here⟩ listed name →
        ∃ earlier ∈ before, (Path.ofText earlier).isAbsolute = true ∧
          Host.HasProgram ⟨root, here⟩ earlier name)
  | nowhere (h : Members.get? environment Host.searchVariable = none)
      (hnone : ∀ here listed, ':' ∉ listed.toList → ¬ Host.HasProgram ⟨root, here⟩ listed name)

/-- A name that is settled is found as it is given. -/
theorem foundAsGiven_of_settled (hbare : '/' ∉ name.toList)
    (h : Settled environment host.tree.root name) : FoundAsGiven environment host name := by
  intro file hfile
  by_cases hname : name = "" ∨ name = "."
  · cases (Host.findProgram_of_nameless hname).symm.trans hfile
  cases h with
  | nameless h => exact absurd h hname
  | empty hsearch =>
    rw [hsearch] at hfile
    cases hfile
  | @given search hsearch hfirst =>
    rw [hsearch] at hfile ⊢
    obtain ⟨-, before, listed, after, hlist, rfl, hlisted, hbefore⟩ :=
      (Host.findProgram_eq_some_iff hname).mp hfile
    refine ⟨rfl, ?_⟩
    rw [Host.isAbsolute_fileIn hbare]
    by_contra hrelative
    obtain ⟨earlier, hearlier, -, hhas⟩ := hfirst host.tree.here before listed after hlist
      (Bool.eq_false_iff.mpr hrelative) hlisted
    exact hbefore earlier hearlier hhas
  | nowhere hsearch hnone =>
    rw [hsearch] at hfile
    obtain ⟨listed, hlisted, rfl, hhas⟩ := Host.exists_of_findProgram hfile
    obtain ⟨cs, hcs, rfl⟩ := List.mem_map.mp hlisted
    refine absurd hhas (hnone host.tree.here _ ?_)
    rw [String.toList_ofList]
    exact Text.not_mem_of_mem_splitChars hcs

/-- A list that ends in a mark has an empty directory at its end. -/
theorem split_concat_mark {listed : String} (h : ':' ∉ listed.toList) :
    Text.split ':' (listed ++ ":") = [listed, ""] := by
  have hchars : (listed ++ ":").toList = listed.toList ++ [':'] := by simp
  unfold Text.split
  rw [hchars, Text.splitChars_append_mark h]
  simp [Text.splitChars]

/-- A name that is found as it is given on every host is settled. -/
theorem settled_of_foundAsGiven (hbare : '/' ∉ name.toList)
    (h : ∀ host : Host, host.tree.root = root → FoundAsGiven environment host name) :
    Settled environment root name := by
  by_cases hname : name = "" ∨ name = "."
  · exact .nameless hname
  cases hsearch : Members.get? environment Host.searchVariable with
  | none =>
    -- a directory that has the name could be the one that a host searches itself
    refine .nowhere hsearch ?_
    intro here listed hmark hhas
    have hfound : Host.findProgram ⟨root, here⟩ (listed ++ ":") name =
        some (Host.fileIn listed name) :=
      (Host.findProgram_eq_some_iff hname).mpr
        ⟨by simp, [], listed, [""], split_concat_mark hmark, rfl, hhas, by simp⟩
    have hgiven := h ⟨⟨root, here⟩, [], [(Host.searchVariable, listed ++ ":")]⟩ rfl
      (Host.fileIn listed name) (by rw [hsearch]; exact hfound)
    rw [hsearch] at hgiven
    cases hgiven.1
  | some search =>
    by_cases hempty : search = ""
    · exact .empty (hempty ▸ hsearch)
    refine .given hsearch ?_
    intro here before listed after hlist hrelative hhas
    have habsolute : ∀ file, Host.findProgram ⟨root, here⟩ search name = some file →
        (Path.ofText file).isAbsolute = true := by
      intro file hfile
      exact (h ⟨⟨root, here⟩, [], []⟩ rfl file (by rw [hsearch]; exact hfile)).2
    -- the first directory that has the name is before the relative one, or that one itself
    cases hfirst : before.find? fun directory =>
        FileTree.isExecutable ⟨root, here⟩ (Path.ofText (Host.fileIn directory name)) with
    | some earlier =>
      obtain ⟨hearlier, front, back, rfl, hfront⟩ := List.find?_eq_some_iff_append.mp hfirst
      have hfound := habsolute _ ((Host.findProgram_eq_some_iff hname).mpr
        ⟨hempty, front, earlier, back ++ listed :: after, by rw [hlist]; simp, rfl, hearlier,
          by simpa [Host.HasProgram] using hfront⟩)
      rw [Host.isAbsolute_fileIn hbare] at hfound
      exact ⟨earlier, by simp, hfound, hearlier⟩
    | none =>
      have hfound := habsolute _ ((Host.findProgram_eq_some_iff hname).mpr
        ⟨hempty, before, listed, after, hlist, rfl, hhas,
          by simpa [Host.HasProgram] using List.find?_eq_none.mp hfirst⟩)
      rw [Host.isAbsolute_fileIn hbare, hrelative] at hfound
      cases hfound

/-- A bare name is looked up alike on all hosts with a file system exactly when the environment given
settles it there. That is so where it gives a search list with absolute directories only. -/
theorem locate_sameEverywhere_iff (henvironment : runner.environment = some environment)
    (hbare : '/' ∉ name.toList) :
    (SameEverywhere runner root (name :: arguments) directory ↔ Settled environment root name) ∧
    ∀ search, Members.get? environment Host.searchVariable = some search →
      (∀ listed ∈ Text.split ':' search, (Path.ofText listed).isAbsolute = true) →
      SameEverywhere runner root (name :: arguments) directory := by
  have hiff : SameEverywhere runner root (name :: arguments) directory ↔
      Settled environment root name := by
    rw [sameEverywhere_iff_of_bare henvironment hbare]
    constructor
    · intro h
      exact settled_of_foundAsGiven hbare fun host hroot => foundAsGiven_of_same h hroot
    · intro h a b ha hb
      refine findProgram_eq_of_foundAsGiven (ha.trans hb.symm) ?_ ?_
      · exact foundAsGiven_of_settled hbare (ha ▸ h)
      · exact foundAsGiven_of_settled hbare (hb ▸ h)
  refine ⟨hiff, fun search hsearch habsolute => hiff.mpr (.given hsearch ?_)⟩
  intro here before listed after hlist hrelative
  have hlisted : listed ∈ Text.split ':' search := by rw [hlist]; simp
  rw [habsolute listed hlisted] at hrelative
  cases hrelative

/-! ## Two hosts with one file system -/

/-- A file system with a linter in `/bin` and an empty directory `/work`. -/
def linterRoot : Node :=
  .directory [("bin", .directory [("lint", .file .empty 0o755)]), ("work", .directory [])]

/-- A host at the top of that file system, which searches `/bin`. -/
def topHost : Host := ⟨⟨linterRoot, []⟩, [], [(Host.searchVariable, "/bin")]⟩

/-- A host in `/work`, which searches this directory. -/
def workHost : Host := ⟨⟨linterRoot, ["work"]⟩, [], [(Host.searchVariable, "/work")]⟩

/-- With `/bin` as the search list given, the linter is found by both hosts. -/
theorem locate_sameEverywhere_iff_linterRoot :
    SameEverywhere ⟨none, some [(Host.searchVariable, "/bin")]⟩ linterRoot ["lint"] ⟨.root, []⟩ ∧
      Command.locate workHost ["lint"] ⟨.root, []⟩ (some "/bin") = .ok ["/bin/lint"] := by
  refine ⟨(locate_sameEverywhere_iff rfl (by decide)).2 "/bin" rfl ?_, rfl⟩
  decide

/-- With the relative list `bin` for a command that starts at the top, it is found by the host that
is at the top as well, and not by the other. Without a list in the environment given, it is found by
the host that searches `/bin` itself. -/
theorem hosts_differ_in_search :
    topHost.tree.root = workHost.tree.root ∧
      Command.locate topHost ["lint"] ⟨.root, []⟩
        (searchList? ⟨none, some [(Host.searchVariable, "bin")]⟩ topHost) = .ok ["bin/lint"] ∧
      Command.locate workHost ["lint"] ⟨.root, []⟩
        (searchList? ⟨none, some [(Host.searchVariable, "bin")]⟩ workHost) =
          .error ⟨["lint"], "executable 'lint' was not found on PATH"⟩ ∧
      Command.locate topHost ["lint"] ⟨.root, []⟩ (searchList? ⟨none, some []⟩ topHost) =
        .ok ["/bin/lint"] ∧
      Command.locate workHost ["lint"] ⟨.root, []⟩ (searchList? ⟨none, some []⟩ workHost) =
        .error ⟨["lint"], "executable 'lint' was not found on PATH"⟩ :=
  ⟨rfl, rfl, rfl, rfl, rfl⟩

end CommandRunner

end LintGateway
