import LintGateway.FileTree.Change
import LintGateway.Proofs.FileTree.LookUp
import LintGateway.Proofs.Path
import LintGateway.Proofs.Traversal

/-!
# Reading back what was written

Writing a file puts one node at one place, where nothing was or another file, and leaves everything
else as a look-up sees it (`Puts`). So what could be looked up before still leads to the same place,
and a look-up that found nothing before finds nothing now, or the new file, or runs into it on the
way. A path under which a file was written therefore leads to this file (`writeWithin_puts`),
also where links on the way led nowhere before.
-/

set_option autoImplicit false

namespace LintGateway

/-! ## Putting a node at a place -/

namespace Node

/-- Where a link leads; a file or a directory leads nowhere else. -/
def target? : Node → Option String
  | link target => some target
  | _ => none

/-- Without names a node is found itself. -/
@[simp] theorem get?_top (node : Node) : node.get? [] = some node := by
  cases node <;> rfl

/-- Names are followed one part after the other. -/
theorem get?_append (node : Node) (names more : List String) :
    node.get? (names ++ more) = (node.get? names).bind fun found => found.get? more := by
  induction names generalizing node with
  | nil => cases node <;> rfl
  | cons name names ih =>
    cases node with
    | directory entries =>
      simp only [List.cons_append, get?]
      cases Members.get? entries name with
      | none => rfl
      | some entry => exact ih entry
    | file | link => rfl

/-- One more name is looked up in the directory to which the others lead. -/
theorem get?_concat {node : Node} {names : List String} {entries : List (String × Node)}
    (h : node.get? names = some (directory entries)) (name : String) :
    node.get? (names ++ [name]) = Members.get? entries name := by
  rw [get?_append, h]
  simp only [Option.bind_some, get?]
  cases Members.get? entries name with
  | none => rfl
  | some entry => cases entry <;> rfl

/-- Two entries that are the same to a look-up: there is none, or both are the same link, or neither
is a link. -/
abbrev SameEntry (entry other : Option Node) : Prop := entry.map target? = other.map target?

/-- Setting a node below a directory leaves a directory. -/
theorem set_directory (new : Node) {names : List String} (entries : List (String × Node))
    (hne : names ≠ []) : ∃ others, set new names (directory entries) = directory others := by
  cases names with
  | nil => exact absurd rfl hne
  | cons name names => exact ⟨_, rfl⟩

variable {new node : Node} {entries : List (String × Node)} {names : List String} {name : String}

/-- Below the entry in which a node is set, that entry with the node set in it is found. -/
theorem get?_set_below {below : Node} (h : Members.get? entries name = some below)
    (place : List String) :
    (set new (name :: names) (directory entries)).get? (name :: place) =
      (set new names below).get? place := by
  simp only [set, get?, Members.get?_put, if_true, Option.bind_some, h, Option.getD_some]

/-- Beside the entry in which a node is set everything is found as before. -/
theorem get?_set_beside {other : String} (h : other ≠ name) (place : List String) :
    (set new (name :: names) (directory entries)).get? (other :: place) =
      (directory entries).get? (other :: place) := by
  simp only [set, get?, Members.get?_put, if_neg h]

/-- A place below the top is in what an entry of the top leads to. -/
theorem exists_of_get?_cons {found : Node} (h : node.get? (name :: names) = some found) :
    ∃ top below, node = directory top ∧ Members.get? top name = some below ∧
      below.get? names = some found := by
  cases node with
  | directory top =>
    obtain ⟨below, hbelow, h⟩ := Option.bind_eq_some_iff.mp h
    exact ⟨top, below, rfl, hbelow, h⟩
  | file | link => cases h

/-- What has a directory below it or is one is a directory. -/
theorem exists_of_get?_directory (h : node.get? names = some (directory entries)) :
    ∃ top, node = directory top := by
  cases node with
  | directory top => exact ⟨top, rfl⟩
  | file | link => cases names <;> cases h

/-- What is put into a directory is found there. -/
theorem get?_set_self (h : node.get? names = some (directory entries)) :
    (set new (names ++ [name]) node).get? (names ++ [name]) = some new := by
  induction names generalizing node with
  | nil =>
    rw [get?_top] at h
    rw [Option.some.inj h]
    simp only [List.nil_append, set, get?, Members.get?_put, if_true, Option.bind_some]
  | cons first names ih =>
    obtain ⟨top, below, rfl, hbelow, h⟩ := exists_of_get?_cons h
    exact (get?_set_below hbelow _).trans (ih h)

/-- Every directory is still one when a node was put into a directory where nothing or a file was,
and its entries are the same to a look-up, but for the new one. -/
theorem get?_set_directory (h : node.get? names = some (directory entries))
    (hold : ∀ old, Members.get? entries name = some old → old.isFile = true)
    {place : List String} {here : List (String × Node)}
    (hhere : node.get? place = some (directory here)) :
    ∃ others, (set new (names ++ [name]) node).get? place = some (directory others) ∧
      ∀ other, place ++ [other] ≠ names ++ [name] →
        SameEntry (Members.get? others other) (Members.get? here other) := by
  -- along the way to the changed directory, from which `place` branches off or which it follows
  induction names generalizing node place with
  | nil =>
    rw [get?_top] at h
    obtain rfl := Option.some.inj h
    cases place with
    | nil =>
      obtain rfl := directory.inj (Option.some.inj hhere)
      refine ⟨_, rfl, fun other hother => ?_⟩
      have hname : other ≠ name := fun heq => hother (by rw [heq])
      rw [SameEntry, Members.get?_put, if_neg hname]
    | cons first place =>
      obtain ⟨top, found, htop, hfound, hbelow⟩ := exists_of_get?_cons hhere
      obtain rfl := directory.inj htop
      have hname : first ≠ name := by
        rintro rfl
        obtain ⟨inner, rfl⟩ := exists_of_get?_directory hbelow
        cases hold _ hfound
      exact ⟨here, (get?_set_beside hname place).trans hhere, fun _ _ => rfl⟩
  | cons next names ih =>
    obtain ⟨top, below, rfl, hbelow, h⟩ := exists_of_get?_cons h
    cases place with
    | nil =>
      obtain rfl := directory.inj (Option.some.inj hhere)
      refine ⟨_, rfl, fun other _ => ?_⟩
      by_cases hnext : other = next
      · obtain ⟨inner, rfl⟩ := exists_of_get?_directory h
        obtain ⟨others, hothers⟩ := set_directory new inner
          (List.append_ne_nil_of_right_ne_nil names (List.cons_ne_nil name []))
        have hlink : (set new (names ++ [name]) (directory inner)).target? = none := by
          rw [hothers]
          rfl
        rw [SameEntry, Members.get?_put, if_pos hnext, hnext, hbelow, Option.getD_some]
        exact congrArg some hlink
      · rw [SameEntry, Members.get?_put, if_neg hnext]
    | cons first place =>
      by_cases hnext : first = next
      · rw [hnext] at hhere ⊢
        obtain ⟨_, found, htop, hfound, hhere⟩ := exists_of_get?_cons hhere
        obtain rfl := directory.inj htop
        obtain rfl := Option.some.inj (hbelow.symm.trans hfound)
        obtain ⟨others, hothers, hsame⟩ := ih h hhere
        refine ⟨others, (get?_set_below hbelow place).trans hothers, fun other hother => ?_⟩
        exact hsame other fun heq => hother (by rw [List.cons_append, heq]; rfl)
      · exact ⟨here, (get?_set_beside hnext place).trans hhere, fun _ _ => rfl⟩

end Node

namespace FileTree

/-- The second tree is the first one with a node at a place where nothing was or a file: each
directory is still there, and its entries are the same to a look-up, but for the new one. -/
structure Puts (t other : FileTree) (place : List String) (new : Node) : Prop where
  here : other.here = t.here
  found : other.root.get? place = some new
  old : ∀ node, t.root.get? place = some node → node.isFile = true
  kept : ∀ done entries, t.root.get? done = some (.directory entries) →
    ∃ others, other.root.get? done = some (.directory others) ∧
      ∀ name, done ++ [name] ≠ place →
        Node.SameEntry (Members.get? others name) (Members.get? entries name)

variable {t other : FileTree} {new : Node} {place names done todo : List String} {name : String}
  {entries : List (String × Node)} {links : Nat}

/-- Setting a node in place of a file, or where nothing was, puts it there. -/
theorem puts_entry (h : t.root.get? names = some (.directory entries))
    (hold : ∀ old, Members.get? entries name = some old → old.isFile = true) :
    Puts t (t.place (names ++ [name]) new) (names ++ [name]) new := by
  refine ⟨rfl, Node.get?_set_self h, ?_, fun done here hhere => ?_⟩
  · rw [Node.get?_concat h]
    exact hold
  · exact Node.get?_set_directory h hold hhere

/-- Setting a node where nothing was puts it there. -/
theorem puts_missing (h : t.root.get? names = some (.directory entries))
    (hmissing : Members.get? entries name = none) :
    Puts t (t.place (names ++ [name]) new) (names ++ [name]) new := by
  refine puts_entry h fun old hold => ?_
  rw [hmissing] at hold
  cases hold

/-- A tree that is one file has no directories that could be kept. -/
theorem puts_top (h : t.root.isFile = true) : Puts t (t.place [] new) [] new := by
  refine ⟨rfl, Node.get?_top new, ?_, fun done here hhere => ?_⟩
  · intro node hnode
    rw [Node.get?_top] at hnode
    rwa [← Option.some.inj hnode]
  · obtain ⟨top, htop⟩ := Node.exists_of_get?_directory hhere
    rw [htop] at h
    cases h

/-- At a directory a name is a dot, two dots, too long, or the name of an entry or of none. -/
theorem turn_of_directory (h : t.root.get? done = some (.directory entries)) :
    t.turn done name =
      if name = "." then .go done
      else if name = ".." then .go done.dropLast
      else if maxNameLength < name.utf8ByteSize then .stop .nameTooLong
      else
        match (Members.get? entries name).map Node.target? with
        | none => .stop .missing
        | some (some target) => .link target
        | some none => .go (done ++ [name]) := by
  unfold turn
  simp only [h]
  cases Members.get? entries name with
  | none => rfl
  | some entry => cases entry <;> rfl

/-- At anything but a directory every name is stopped. -/
theorem turn_of_not_directory (h : ∀ entries, t.root.get? done ≠ some (.directory entries)) :
    t.turn done name = .stop .notDirectory := by
  unfold turn
  split
  · rename_i entries heq
    exact absurd heq (h entries)
  · rfl

/-- A name does to a look-up what it did, unless it is missing and is now that of the new node, or
there was no directory to look in. -/
theorem Puts.turn (h : Puts t other place new) (hnew : new.target? = none) (done : List String)
    (name : String) :
    other.turn done name = t.turn done name ∨
      (t.turn done name = .stop .missing ∧ other.turn done name = .go place) ∨
      t.turn done name = .stop .notDirectory := by
  by_cases hdirectory : ∃ entries, t.root.get? done = some (.directory entries)
  · obtain ⟨entries, hentries⟩ := hdirectory
    obtain ⟨others, hothers, hsame⟩ := h.kept done entries hentries
    rw [turn_of_directory hentries, turn_of_directory hothers]
    -- only the entry at the new place can look different
    by_cases hplace : done ++ [name] = place
    · have hnow : Members.get? others name = some new := by
        rw [← Node.get?_concat hothers, hplace, h.found]
      have hbefore : ∀ old, Members.get? entries name = some old → old.target? = none := by
        intro old hold
        rw [← Node.get?_concat hentries, hplace] at hold
        have hfile := h.old old hold
        cases old with
        | file => rfl
        | directory | link => cases hfile
      rw [hnow, Option.map_some, hnew, hplace]
      cases hentry : Members.get? entries name with
      | some old =>
        rw [Option.map_some, hbefore old hentry]
        exact Or.inl rfl
      | none =>
        by_cases hdot : name = "."
        · simp [hdot]
        by_cases hdots : name = ".."
        · simp [hdots]
        by_cases hlong : maxNameLength < name.utf8ByteSize
        · simp [hdot, hdots, hlong]
        simp [hdot, hdots, hlong]
    · rw [hsame name hplace]
      exact Or.inl rfl
  · exact Or.inr (Or.inr (turn_of_not_directory fun entries heq => hdirectory ⟨entries, heq⟩))

/-- Where a name went somewhere before, it does after a node that is no link was put. -/
theorem Puts.turn_go (h : Puts t other place new) (hnew : new.target? = none)
    {next : List String} (hturn : t.turn done name = .go next) :
    other.turn done name = .go next := by
  rcases h.turn hnew done name with heq | ⟨hmissing, -⟩ | hdirectory
  · exact heq.trans hturn
  · cases hturn.symm.trans hmissing
  · cases hturn.symm.trans hdirectory

/-- Where a name was a link before, it is one after a node that is no link was put. -/
theorem Puts.turn_link (h : Puts t other place new) (hnew : new.target? = none)
    {target : String} (hturn : t.turn done name = .link target) :
    other.turn done name = .link target := by
  rcases h.turn hnew done name with heq | ⟨hmissing, -⟩ | hdirectory
  · exact heq.trans hturn
  · cases hturn.symm.trans hmissing
  · cases hturn.symm.trans hdirectory

/-- What led to a place still does. -/
theorem Puts.locates (h : Puts t other place new) (hnew : new.target? = none)
    {last : List String} (hlocates : Locates t links done todo (.ok last)) :
    Locates other links done todo (.ok last) := by
  generalize hresult : Except.ok last = result at hlocates
  induction hlocates with
  | arrive => exact .arrive
  | stop => cases hresult
  | loop => cases hresult
  | go hturn _ ih => exact .go (h.turn_go hnew hturn) (ih hresult)
  | link hturn _ ih => exact .link (h.turn_link hnew hturn) (ih hresult)

/-- Putting a node that is no link leaves places what they are. -/
theorem Puts.isPlace (h : Puts t other place new) (hnew : new.target? = none)
    (hdone : IsPlace t done) : IsPlace other done := by
  induction hdone with
  | top => exact .top
  | entry _ hturn ih => exact .entry ih (h.turn_go hnew hturn)

/-- A look-up that found nothing finds nothing, or the new file, or runs into it on the way. -/
theorem Puts.locates_missing {content : ByteArray} {mode : Nat}
    (h : Puts t other place (.file content mode))
    (hlocates : Locates t links done todo (.error .missing)) :
    ∃ result, Locates other links done todo result ∧
      (result = .error .missing ∨ result = .ok place ∨ result = .error .notDirectory) := by
  generalize hresult : Except.error FileError.missing = result at hlocates
  induction hlocates with
  | arrive => cases hresult
  | loop => cases hresult
  | @stop links done rest name e hturn =>
    cases hresult
    rcases h.turn rfl done name with heq | ⟨-, hgo⟩ | heq
    · exact ⟨_, .stop (heq.trans hturn), Or.inl rfl⟩
    · cases rest with
      | nil => exact ⟨_, .go hgo .arrive, Or.inr (Or.inl rfl)⟩
      | cons next rest =>
        have hfile : other.turn place next = .stop .notDirectory := by
          refine turn_of_not_directory fun entries heq => ?_
          rw [h.found] at heq
          cases heq
        exact ⟨_, .go hgo (.stop hfile), Or.inr (Or.inr rfl)⟩
    · rw [hturn] at heq
      cases heq
  | go hturn _ ih =>
    obtain ⟨result, hlocates, hcases⟩ := ih hresult
    exact ⟨result, .go (h.turn_go rfl hturn) hlocates, hcases⟩
  | link hturn _ ih =>
    obtain ⟨result, hlocates, hcases⟩ := ih hresult
    exact ⟨result, .link (h.turn_link rfl hturn) hlocates, hcases⟩

/-- Putting a node leaves the start of every path. -/
theorem Puts.start_eq (h : Puts t other place new) (p : Path) : other.start p = t.start p := by
  unfold start
  rw [h.here]

/-! ## Writing a file -/

/-- At a place there is a node. -/
theorem IsPlace.exists_get? (h : IsPlace t place) : ∃ node, t.root.get? place = some node := by
  cases h with
  | top => exact ⟨t.root, Node.get?_top t.root⟩
  | entry _ hturn =>
    obtain ⟨entries, node, hdirectory, hentry⟩ := exists_entry_of_go hturn
    exact ⟨node, (Node.get?_concat hdirectory _).trans hentry⟩

/-- A file can be put in the place of another one. -/
theorem IsPlace.puts {content : ByteArray} {mode : Nat} (h : IsPlace t place) (new : Node)
    (hfile : t.root.get? place = some (.file content mode)) :
    Puts t (t.place place new) place new := by
  cases h with
  | top =>
    refine puts_top ?_
    rw [Node.get?_top] at hfile
    rw [Option.some.inj hfile]
    rfl
  | entry _ hturn =>
    obtain ⟨entries, node, hdirectory, hentry⟩ := exists_entry_of_go hturn
    refine puts_entry hdirectory fun old hold => ?_
    rw [← Node.get?_concat hdirectory, hfile] at hold
    rw [← Option.some.inj hold]
    rfl

variable {p : Path} {content : ByteArray}

/-- A path has a node exactly when it is found at the place of that. -/
theorem node_eq_ok_iff {node : Node} : t.node p = .ok node ↔
    ∃ place, t.locate p false = .ok place ∧ t.root.get? place = some node := by
  unfold FileTree.node
  cases hlocate : t.locate p false with
  | error e => simp
  | ok place => cases hget : t.root.get? place <;> simp [hget]

/-- A path without a node is missing in the look-up. -/
theorem locate_of_node_missing (hstart : IsPlace t (t.start p)) (h : t.node p = .error .missing) :
    t.locate p false = .error .missing := by
  unfold FileTree.node at h
  cases hlocate : t.locate p false with
  | error e =>
    simp only [hlocate] at h
    rw [Except.error.inj h]
  | ok place =>
    obtain ⟨-, hlocates⟩ := locate_eq_ok_iff.mp hlocate
    obtain ⟨node, hnode⟩ := (hlocates.isPlace hstart).exists_get?
    simp only [hlocate, hnode] at h
    cases h

/-- The place of a new file is a name in a directory that is found. -/
theorem newPlace_eq_ok (h : t.newPlace p = .ok place) :
    ∃ directory entries, t.locate p.parent false = .ok directory ∧
      t.root.get? directory = some (.directory entries) ∧ place = directory ++ [p.name] := by
  unfold newPlace at h
  cases hlocate : t.locate p.parent false with
  | error e =>
    rw [hlocate] at h
    cases h
  | ok directory =>
    simp only [hlocate] at h
    split at h
    · rename_i entries hget
      cases h
      exact ⟨directory, entries, rfl, hget, rfl⟩
    · cases h

/-- A new entry goes into the directory that the path without its last name leads to. -/
theorem exists_last_of_newPlace (h : t.newPlace p = .ok place) (hne : p.segments ≠ []) :
    ∃ init last directory, p.segments = init ++ [last] ∧ place = directory ++ [last] ∧
      Locates t maxLinks (t.start p) init (.ok directory) := by
  obtain ⟨directory, entries, hlocate, -, rfl⟩ := newPlace_eq_ok h
  obtain ⟨-, hparent⟩ := locate_eq_ok_iff.mp hlocate
  obtain hnil | ⟨init, last, hsegments⟩ := List.eq_nil_or_concat p.segments
  · exact absurd hnil hne
  rw [List.concat_eq_append] at hsegments
  refine ⟨init, last, directory, hsegments, ?_, ?_⟩
  · rw [Path.name, hsegments, List.getLast?_concat]
    rfl
  · have hinit : p.parent.segments = init := by simp [Path.parent, hsegments]
    rw [← hinit]
    exact hparent

/-- A path under which nothing is found and something can be made has a last name, and it is this
name that is missing, or what a link of this name leads to. -/
theorem exists_last_of_missing (hstart : IsPlace t (t.start p)) (hnode : t.node p = .error .missing)
    (hnew : t.newPlace p = .ok place) :
    Admits p ∧ ∃ init last directory, p.segments = init ++ [last] ∧ place = directory ++ [last] ∧
      Locates t maxLinks (t.start p) init (.ok directory) ∧
      Locates t maxLinks (t.start p) (init ++ [last]) (.error .missing) := by
  obtain ⟨hadmits, hmissing⟩ := locate_eq_missing_iff.mp (locate_of_node_missing hstart hnode)
  have hne : p.segments ≠ [] := by
    intro hnil
    rw [hnil] at hmissing
    cases hmissing
  obtain ⟨init, last, directory, hsegments, rfl, hparent⟩ := exists_last_of_newPlace hnew hne
  exact ⟨hadmits, init, last, directory, hsegments, rfl, hparent, hsegments ▸ hmissing⟩

/-- What a look-up that ends with a name missing does with this name. -/
theorem exists_turn_of_missing {init : List String} {last : String} {directory : List String}
    (hparent : Locates t links done init (.ok directory))
    (h : Locates t links done (init ++ [last]) (.error .missing)) :
    t.turn directory last = .stop .missing ∨ ∃ target, t.turn directory last = .link target := by
  obtain ⟨left, -, heq⟩ := hparent.append false (List.cons_ne_nil last [])
  rw [h.eq] at heq
  have hlast := locateWithin_eq_iff.mp heq.symm
  generalize hresult : Except.error FileError.missing = result at hlast
  cases hlast with
  | stop hturn =>
    cases hresult
    exact Or.inl hturn
  | go _ hrest =>
    cases hrest
    cases hresult
  | link hturn => exact Or.inr ⟨_, hturn⟩
  | loop hturn => exact Or.inr ⟨_, hturn⟩

/-- Where the last name of a path was missing and a file of that name is made, the path leads to it.
-/
theorem Puts.locates_made {init : List String} {last : String} {directory : List String}
    {mode : Nat} (h : Puts t other (directory ++ [last]) (.file content mode))
    (hparent : Locates t links done init (.ok directory))
    (hturn : t.turn directory last = .stop .missing) :
    Locates other links done (init ++ [last]) (.ok (directory ++ [last])) := by
  obtain ⟨left, -, heq⟩ :=
    (h.locates rfl hparent).append false (List.cons_ne_nil last [])
  have hgo : other.turn directory last = .go (directory ++ [last]) := by
    rcases h.turn rfl directory last with hsame | ⟨-, hgo⟩ | hnone
    · obtain ⟨others, hothers, hentry⟩ := exists_of_missing (hsame.trans hturn)
      have hfound := h.found
      rw [Node.get?_concat hothers, hentry] at hfound
      cases hfound
    · exact hgo
    · rw [hturn] at hnone
      cases hnone
  rw [← locateWithin_eq_iff, heq, locateWithin_cons, hgo]
  exact locateWithin_nil

/-- A link that is met in a directory leads where the path of its target, seen from there, leads. -/
theorem IsPlace.locateWithin_join (h : IsPlace t done) (target : Path) :
    t.locateWithin false links (t.start (Path.join ⟨.root, done⟩ target))
        (Path.join ⟨.root, done⟩ target).segments =
      t.locateWithin false links (if target.isAbsolute then [] else done) target.segments := by
  unfold Path.join
  by_cases habsolute : target.isAbsolute = true
  · rw [if_pos habsolute, if_pos habsolute, start_of_isAbsolute habsolute]
  · rw [if_neg habsolute, if_neg habsolute, start_of_isAbsolute rfl]
    exact h.locateWithin_append target.segments

/-- Where the last name of a path is that of a link which led nowhere, and a file was put where the
target of the link leads, the path leads to it. -/
theorem Puts.locates_linked {init : List String} {last target : String} {directory : List String}
    {mode : Nat} (h : Puts t other place (.file content mode)) (hdirectory : IsPlace t directory)
    (hparent : Locates t maxLinks done init (.ok directory))
    (hmissing : Locates t maxLinks done (init ++ [last]) (.error .missing))
    (hturn : t.turn directory last = .link target)
    (hlocate : other.locate (Path.join ⟨.root, directory⟩ (Path.ofRawText target)) false =
      .ok place) :
    Locates other maxLinks done (init ++ [last]) (.ok place) := by
  obtain ⟨result, hresult, hcases⟩ := h.locates_missing hmissing
  obtain ⟨left, hleft, heq⟩ :=
    (h.locates rfl hparent).append false (List.cons_ne_nil last [])
  have hlink : other.turn directory last = .link target := h.turn_link rfl hturn
  have hend : result ≠ .error .linkLoop := by
    rcases hcases with rfl | rfl | rfl <;> simp
  rw [hresult.eq, locateWithin_cons, hlink] at heq
  -- Through the link the target is looked up with the links that are left, while `hlocate` has all
  -- of them; it comes to the same since neither ends for want of links.
  cases left with
  | zero => exact absurd heq hend
  | succ left =>
    have hrest := locateWithin_eq_iff.mp heq.symm
    rw [List.append_nil] at hrest
    have hfar := (hrest.of_le hend (Nat.le_of_succ_le hleft)).eq
    rw [← (h.isPlace rfl hdirectory).locateWithin_join, (locate_eq_ok_iff.mp hlocate).2.eq] at hfar
    rw [hfar]
    exact hresult

/-- The ways in which a file is written under a path: over another file, at a place where nothing
was, or under the path to which a link at that place leads. -/
inductive Writes (t : FileTree) (content : ByteArray) (links : Nat) (p : Path) (other : FileTree) :
    Prop
  | replaced {place : List String} {old : ByteArray} {mode : Nat}
      (hlocate : t.locate p false = .ok place)
      (hfile : t.root.get? place = some (.file old mode))
      (hother : other = t.place place (.file content mode))
  | made {place : List String} (hnode : t.node p = .error .missing)
      (hnew : t.newPlace p = .ok place) (hlink : ∀ target, t.root.get? place ≠ some (.link target))
      (hother : other = t.place place (.file content newFileMode))
  | linked {place : List String} {target : String} (hnode : t.node p = .error .missing)
      (hnew : t.newPlace p = .ok place) (hlink : t.root.get? place = some (.link target))
      (hother : writeWithin content t links
        (Path.join ⟨.root, place.dropLast⟩ (Path.ofRawText target)) = .ok other)

/-- What writing does is one of the ways to write. -/
theorem writes (h : writeWithin content t (links + 1) p = .ok other) :
    Writes t content links p other := by
  unfold writeWithin at h
  split at h
  · rename_i old mode hnode
    obtain ⟨place, hlocate, hget⟩ := node_eq_ok_iff.mp hnode
    rw [hlocate] at h
    exact .replaced hlocate hget (Except.ok.inj h).symm
  · cases h
  · rename_i hnode
    split at h
    · cases h
    · rename_i place hnew
      split at h
      · exact .linked hnode hnew ‹_› h
      · rename_i hlink
        exact .made hnode hnew hlink (Except.ok.inj h).symm
  · cases h

/-- What is written under a path at which nothing was found, in the directory above it or where a
link there leads, is found under it. -/
theorem locate_of_located {init : List String} {last : String} {mode : Nat}
    (hadmits : Admits p) (hsegments : p.segments = init ++ [last])
    (hputs : Puts t other place (.file content mode))
    (h : Locates other maxLinks (t.start p) (init ++ [last]) (.ok place)) :
    other.locate p false = .ok place := by
  rw [locate_eq_ok_iff, hsegments, hputs.start_eq]
  exact ⟨hadmits, h⟩

/-- A file that is written under a path is put at one place, and the path leads there. -/
theorem writeWithin_puts (hstart : IsPlace t (t.start p))
    (h : writeWithin content t links p = .ok other) :
    ∃ place mode, Puts t other place (.file content mode) ∧ other.locate p false = .ok place := by
  induction links generalizing p with
  | zero => cases h
  | succ links ih =>
    cases writes h with
    | @replaced place old mode hlocate hfile hother =>
      obtain ⟨hadmits, hlocates⟩ := locate_eq_ok_iff.mp hlocate
      have hputs : Puts t other place (.file content mode) := by
        rw [hother]
        exact (hlocates.isPlace hstart).puts (.file content mode) hfile
      exact ⟨place, mode, hputs, locate_eq_ok_iff.mpr
        ⟨hadmits, hputs.start_eq p ▸ hputs.locates rfl hlocates⟩⟩
    | @made place hnode hnew hlink hother =>
      obtain ⟨hadmits, init, last, directory, hsegments, rfl, hparent, hmissing⟩ :=
        exists_last_of_missing hstart hnode hnew
      rcases exists_turn_of_missing hparent hmissing with hturn | ⟨target, hturn⟩
      · obtain ⟨here, hhere, hentry⟩ := exists_of_missing hturn
        have hputs : Puts t other (directory ++ [last]) (.file content newFileMode) := by
          rw [hother]
          exact puts_missing hhere hentry
        exact ⟨_, _, hputs,
          locate_of_located hadmits hsegments hputs (hputs.locates_made hparent hturn)⟩
      · obtain ⟨here, hhere, hentry⟩ := exists_of_link hturn
        exact absurd ((Node.get?_concat hhere last).trans hentry) (hlink target)
    | @linked place target hnode hnew hlink hother =>
      obtain ⟨hadmits, init, last, directory, hsegments, rfl, hparent, hmissing⟩ :=
        exists_last_of_missing hstart hnode hnew
      rw [List.dropLast_concat] at hother
      have hturn : t.turn directory last = .link target := by
        rcases exists_turn_of_missing hparent hmissing with hturn | ⟨other, hturn⟩
        · obtain ⟨here, hhere, hentry⟩ := exists_of_missing hturn
          rw [Node.get?_concat hhere, hentry] at hlink
          cases hlink
        · obtain ⟨here, hhere, hentry⟩ := exists_of_link hturn
          rw [Node.get?_concat hhere, hentry] at hlink
          cases hlink
          exact hturn
      have hfromTop : IsPlace t
          (t.start (Path.join ⟨.root, directory⟩ (Path.ofRawText target))) := by
        rw [start_of_isAbsolute (by rw [Path.isAbsolute_join]; rfl)]
        exact .top
      -- the target is followed from the top, wherever `p` itself starts
      obtain ⟨place, mode, hputs, hplace⟩ := ih hfromTop hother
      exact ⟨place, mode, hputs, locate_of_located hadmits hsegments hputs
        (hputs.locates_linked (hparent.isPlace hstart) hparent hmissing hturn hplace)⟩

/-! ## Making directories -/

/-- What has been done to a tree leaves every place one, and relative paths start where they did. -/
structure Keeps (t other : FileTree) : Prop where
  here : other.here = t.here
  places : ∀ done, IsPlace t done → IsPlace other done

/-- A tree keeps what it has. -/
theorem Keeps.refl (t : FileTree) : Keeps t t := ⟨rfl, fun _ h => h⟩

/-- What is kept twice is kept. -/
theorem Keeps.trans {last : FileTree} (h : Keeps t other) (hnext : Keeps other last) :
    Keeps t last :=
  ⟨hnext.here.trans h.here, fun done hdone => hnext.places done (h.places done hdone)⟩

/-- The start of a path stays a place. -/
theorem Keeps.isPlace_start (h : Keeps t other) (hstart : IsPlace t (t.start p)) :
    IsPlace other (other.start p) := by
  have heq : other.start p = t.start p := by
    unfold start
    rw [h.here]
  rw [heq]
  exact h.places _ hstart

/-- A directory is made in another one, under a name that was missing there. -/
theorem exists_of_makeDirectory (h : t.makeDirectory p = .ok other) :
    ∃ directory last, t.turn directory last = .stop .missing ∧
      other = t.place (directory ++ [last]) .emptyDirectory := by
  unfold makeDirectory at h
  split at h
  · cases h
  · rename_i hlocate
    obtain ⟨place, hnew, rfl⟩ := (map_eq_ok_iff _ _ _).mp h
    have hadmits := admits_of_locate hlocate (by simp) (by simp)
    rw [hadmits.locate_eq] at hlocate
    have hne : p.segments ≠ [] := by
      intro hnil
      rw [hnil, locateWithin_nil] at hlocate
      cases hlocate
    obtain ⟨init, last, directory, hsegments, rfl, hparent⟩ := exists_last_of_newPlace hnew hne
    refine ⟨directory, last, ?_, rfl⟩
    obtain ⟨left, -, heq⟩ := hparent.append true (List.cons_ne_nil last [])
    rw [hsegments, heq, locateWithin_cons] at hlocate
    -- a link of this name would be kept as it is the last one, and not be missing
    cases hturn : t.turn directory last with
    | go place =>
      simp only [hturn, locateWithin_nil] at hlocate
      cases hlocate
    | link target =>
      rw [hturn] at hlocate
      cases hlocate
    | stop e =>
      rw [hturn] at hlocate
      rw [Except.error.inj hlocate]
  · cases h

/-- Making a directory keeps what there is. -/
theorem makeDirectory_keeps (h : t.makeDirectory p = .ok other) : Keeps t other := by
  obtain ⟨directory, last, hturn, rfl⟩ := exists_of_makeDirectory h
  obtain ⟨entries, hentries, hentry⟩ := exists_of_missing hturn
  have hputs : Puts t (t.place (directory ++ [last]) .emptyDirectory) (directory ++ [last])
      .emptyDirectory :=
    puts_missing hentries hentry
  exact ⟨rfl, fun done hdone => hputs.isPlace rfl hdone⟩

/-- Making a directory and those above it changes nothing, or makes it where the tree is, or makes it
or nothing after making those above it. -/
theorem makeDirectoriesWithin_tree {left : Nat} {result : Except FileError Unit}
    (h : makeDirectoriesWithin left t p = (other, result)) :
    other = t ∨ t.makeDirectory p = .ok other ∨
      ∃ below made above, left = below + 1 ∧
        makeDirectoriesWithin below t p.parent = (made, above) ∧
        (other = made ∨ made.makeDirectory p = .ok other) := by
  unfold makeDirectoriesWithin at h
  split at h
  · rename_i made hmade
    rw [hmade, (Prod.mk.inj h).1]
    exact Or.inr (Or.inl rfl)
  · split at h
    · exact Or.inl (Prod.mk.inj h).1.symm
    · split at h
      · rename_i made e habove
        exact Or.inr (Or.inr ⟨_, made, _, rfl, habove, Or.inl (Prod.mk.inj h).1.symm⟩)
      · rename_i made habove
        refine Or.inr (Or.inr ⟨_, made, _, rfl, habove, ?_⟩)
        split at h
        · rename_i last hlast
          rw [hlast, (Prod.mk.inj h).1]
          exact Or.inr rfl
        · refine Or.inl ?_
          split at h <;> exact (Prod.mk.inj h).1.symm
  · refine Or.inl ?_
    split at h <;> exact (Prod.mk.inj h).1.symm

/-- Making directories keeps what there is, even where one of them fails. -/
theorem makeDirectoriesWithin_keeps {left : Nat} {result : Except FileError Unit}
    (h : makeDirectoriesWithin left t p = (other, result)) : Keeps t other := by
  induction left generalizing p other result with
  | zero =>
    rcases makeDirectoriesWithin_tree h with rfl | hmade | ⟨below, made, above, hleft, -⟩
    · exact .refl other
    · exact makeDirectory_keeps hmade
    · cases hleft
  | succ left ih =>
    rcases makeDirectoriesWithin_tree h with rfl | hmade | ⟨below, made, above, hleft, habove, hlast⟩
    · exact .refl other
    · exact makeDirectory_keeps hmade
    · obtain rfl := Nat.succ.inj hleft
      rcases hlast with rfl | hlast
      · exact ih habove
      · exact (ih habove).trans (makeDirectory_keeps hlast)

/-! ## A file in directories that are made for it -/

/-- What is written under a path on a reliable disk, in directories that are made for it, is in the
file that the path then leads to. -/
theorem reliable_puts {made stored : FileTree} (hstart : IsPlace t (t.start p))
    (hmade : Disk.reliable.makeDirectories t p.parent = (made, .ok ()))
    (hwritten : Disk.reliable.write made p content = (stored, .ok ())) :
    stored.here = t.here ∧ ∃ place mode, stored.root.get? place = some (.file content mode) ∧
      stored.locate p false = .ok place := by
  have hkeeps : Keeps t made := makeDirectoriesWithin_keeps hmade
  have hwrite : made.write p content = .ok stored := by
    simp only [Disk.reliable] at hwritten
    split at hwritten
    · rename_i written hwrite
      rw [hwrite, (Prod.mk.inj hwritten).1]
    · cases hwritten
  obtain ⟨place, mode, hputs, hlocate⟩ :=
    writeWithin_puts (hkeeps.isPlace_start hstart) hwrite
  exact ⟨hputs.here.trans hkeeps.here, place, mode, hputs.found, hlocate⟩

end FileTree

end LintGateway
