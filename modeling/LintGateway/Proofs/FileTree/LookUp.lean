import LintGateway.Host.Basic
import LintGateway.Proofs.Path

/-!
# Following a path

A look-up goes from directory to directory, one name at a time. From where it is, a name stops it,
takes it to another place or is that of a link (`turn`); `Locates` puts these steps together, and
holds of the result of a look-up and of nothing else. What is said of look-ups is proved along it:
that they end at places which lead to themselves (`IsPlace`), that a path is followed part by part,
that a greater bound on the links changes nothing once the look-up ends, and that dots on the way do
not count.
-/

set_option autoImplicit false

namespace LintGateway.FileTree

/-- What a name does to a look-up. -/
inductive Turn where
  | stop (e : FileError)
  | go (place : List String)
  | link (target : String)

/-- What a name does to a look-up that is at a place. -/
def turn (t : FileTree) (done : List String) (name : String) : Turn :=
  match t.root.get? done with
  | some (.directory entries) =>
    if name = "." then .go done
    else if name = ".." then .go done.dropLast
    else if maxNameLength < name.utf8ByteSize then .stop .nameTooLong
    else
      match Members.get? entries name with
      | none => .stop .missing
      | some (.link target) => .link target
      | some _ => .go (done ++ [name])
  | _ => .stop .notDirectory

/-- A look-up goes on from a link with its target, as long as another link may be followed. -/
def follow (t : FileTree) (keepLast : Bool) :
    Nat → List String → String → List String → Except FileError (List String)
  | 0, _, _, _ => .error .linkLoop
  | links + 1, done, target, rest =>
    t.locateWithin keepLast links (if (Path.ofRawText target).isAbsolute then [] else done)
      ((Path.ofRawText target).segments ++ rest)

variable {t : FileTree} {keepLast : Bool} {links : Nat} {done todo rest place : List String}
  {name : String}

/-- What a name can do to a look-up that is at a place, and when. -/
inductive Turns (t : FileTree) (done : List String) (name : String) : Turn → Prop
  | notDirectory (h : ∀ entries, t.root.get? done ≠ some (.directory entries)) :
      Turns t done name (.stop .notDirectory)
  | stay (h : name = ".") : Turns t done name (.go done)
  | up (h : name = "..") : Turns t done name (.go done.dropLast)
  | tooLong : Turns t done name (.stop .nameTooLong)
  | missing {entries : List (String × Node)} (h : t.root.get? done = some (.directory entries))
      (hentry : Members.get? entries name = none) : Turns t done name (.stop .missing)
  | link {entries : List (String × Node)} {target : String}
      (h : t.root.get? done = some (.directory entries))
      (hentry : Members.get? entries name = some (.link target)) : Turns t done name (.link target)
  | entry {entries : List (String × Node)} {node : Node}
      (h : t.root.get? done = some (.directory entries))
      (hentry : Members.get? entries name = some node) (hnode : node.isLink = false) :
      Turns t done name (.go (done ++ [name]))

/-- The turn of a look-up at a name is what the name can do there. -/
theorem turns (t : FileTree) (done : List String) (name : String) :
    Turns t done name (t.turn done name) := by
  unfold turn
  split
  · rename_i entries hdirectory
    split
    · exact .stay ‹_›
    · split
      · exact .up ‹_›
      · split
        · exact .tooLong
        · cases hentry : Members.get? entries name with
          | none => exact .missing hdirectory hentry
          | some node =>
            cases node with
            | link target => exact .link hdirectory hentry
            | file | directory => exact .entry hdirectory hentry rfl
  · exact .notDirectory ‹_›

/-- A look-up without names left has arrived. -/
@[simp] theorem locateWithin_nil : t.locateWithin keepLast links done [] = .ok done := by
  cases links <;> rfl

/-- A look-up goes on with its first name, whatever is done with links. -/
theorem locateFrom_cons
    (onLink : List String → Path → List String → Except FileError (List String)) :
    t.locateFrom keepLast onLink done (name :: rest) =
      match t.turn done name with
      | .stop e => .error e
      | .go place => t.locateFrom keepLast onLink place rest
      | .link target =>
        if keepLast && rest.isEmpty then .ok (done ++ [name])
        else onLink done (Path.ofRawText target) rest := by
  rw [locateFrom]
  unfold turn
  cases t.root.get? done with
  | none => rfl
  | some node =>
    cases node with
    | file | link => rfl
    | directory entries =>
      by_cases hdot : name = "."
      · simp only [if_pos hdot]
      by_cases hdots : name = ".."
      · simp only [if_neg hdot, if_pos hdots]
      by_cases hlong : maxNameLength < name.utf8ByteSize
      · simp only [if_neg hdot, if_neg hdots, if_pos hlong]
      simp only [if_neg hdot, if_neg hdots, if_neg hlong]
      cases Members.get? entries name with
      | none => rfl
      | some entry => cases entry <;> rfl

/-- A look-up with some links left goes on with its first name. -/
theorem locateWithin_cons :
    t.locateWithin keepLast links done (name :: rest) =
      match t.turn done name with
      | .stop e => .error e
      | .go place => t.locateWithin keepLast links place rest
      | .link target =>
        if keepLast && rest.isEmpty then .ok (done ++ [name])
        else t.follow keepLast links done target rest := by
  cases links <;> exact locateFrom_cons _

/-- How a look-up comes to its result, with at most a given number of links on the way: it arrives
when no name is left, and otherwise goes as the next name says. -/
inductive Locates (t : FileTree) :
    Nat → List String → List String → Except FileError (List String) → Prop
  | arrive {links : Nat} {done : List String} : Locates t links done [] (.ok done)
  | stop {links : Nat} {done rest : List String} {name : String} {e : FileError}
      (h : t.turn done name = .stop e) : Locates t links done (name :: rest) (.error e)
  | go {links : Nat} {done rest place : List String} {name : String}
      {result : Except FileError (List String)} (h : t.turn done name = .go place)
      (hrest : Locates t links place rest result) : Locates t links done (name :: rest) result
  | link {links : Nat} {done rest : List String} {name target : String}
      {result : Except FileError (List String)} (h : t.turn done name = .link target)
      (hrest : Locates t links (if (Path.ofRawText target).isAbsolute then [] else done)
        ((Path.ofRawText target).segments ++ rest) result) :
      Locates t (links + 1) done (name :: rest) result
  | loop {done rest : List String} {name target : String} (h : t.turn done name = .link target) :
      Locates t 0 done (name :: rest) (.error .linkLoop)

/-- What a look-up comes to is what its way leads to. -/
theorem locates_locateWithin (t : FileTree) (links : Nat) (done todo : List String) :
    Locates t links done todo (t.locateWithin false links done todo) := by
  induction links generalizing done todo with
  | zero =>
    induction todo generalizing done with
    | nil => exact locateWithin_nil ▸ .arrive
    | cons name rest ih =>
      rw [locateWithin_cons]
      cases hturn : t.turn done name with
      | stop e => exact .stop hturn
      | go place => exact .go hturn (ih place)
      | link target => exact .loop hturn
  | succ links ihlinks =>
    induction todo generalizing done with
    | nil => exact locateWithin_nil ▸ .arrive
    | cons name rest ih =>
      rw [locateWithin_cons]
      cases hturn : t.turn done name with
      | stop e => exact .stop hturn
      | go place => exact .go hturn (ih place)
      | link target => exact .link hturn (ihlinks _ _)

/-- The way of a look-up leads to one result. -/
theorem Locates.eq {result : Except FileError (List String)}
    (h : Locates t links done todo result) : t.locateWithin false links done todo = result := by
  induction h with
  | arrive => exact locateWithin_nil
  | stop h => rw [locateWithin_cons, h]
  | go h _ ih => rw [locateWithin_cons, h, ← ih]
  | link h _ ih =>
    rw [locateWithin_cons, h, ← ih]
    rfl
  | loop h =>
    rw [locateWithin_cons, h]
    rfl

/-- A look-up comes to a result exactly when its way leads there. -/
theorem locateWithin_eq_iff {result : Except FileError (List String)} :
    t.locateWithin false links done todo = result ↔ Locates t links done todo result := by
  constructor
  · rintro rfl
    exact locates_locateWithin t links done todo
  · exact Locates.eq

/-! ## Parts of a path -/

/-- A path whose first part leads to a place is followed from there, with the links that are left.
-/
theorem Locates.append {ys : List String} (h : Locates t links done todo (.ok place))
    (keepLast : Bool) (hys : ys ≠ []) :
    ∃ left ≤ links, t.locateWithin keepLast links done (todo ++ ys) =
      t.locateWithin keepLast left place ys := by
  generalize hresult : Except.ok place = result at h
  induction h with
  | arrive =>
    cases hresult
    exact ⟨_, Nat.le_refl _, rfl⟩
  | stop => cases hresult
  | loop => cases hresult
  | go h _ ih =>
    obtain ⟨left, hleft, heq⟩ := ih hresult
    refine ⟨left, hleft, ?_⟩
    rw [List.cons_append, locateWithin_cons, h, ← heq]
  | @link links done rest name target _ h _ ih =>
    obtain ⟨left, hleft, heq⟩ := ih hresult
    refine ⟨left, Nat.le_succ_of_le hleft, ?_⟩
    -- a link is kept only as the last name, and `ys` comes after it
    have hmore : (keepLast && (rest ++ ys).isEmpty) = false := by simp [hys]
    rw [List.append_assoc] at heq
    rw [List.cons_append, locateWithin_cons, h, ← heq]
    simp only [hmore]
    rfl

/-- A look-up that ends within a bound ends alike within a greater one. -/
theorem Locates.of_le {more : Nat} {result : Except FileError (List String)}
    (h : Locates t links done todo result) (hend : result ≠ .error .linkLoop)
    (hle : links ≤ more) : Locates t more done todo result := by
  induction h generalizing more with
  | arrive => exact .arrive
  | stop h => exact .stop h
  | go h _ ih => exact .go h (ih hend hle)
  | link h _ ih =>
    obtain ⟨more, rfl⟩ : ∃ k, more = k + 1 := ⟨more - 1, by omega⟩
    exact .link h (ih hend (by omega))
  | loop => exact absurd rfl hend

/-! ## Dots on the way -/

/-- The first list of names is the second one with dots in it, each of them before another name. -/
inductive Dotted : List String → List String → Prop
  | nil : Dotted [] []
  | cons (name : String) {names plain : List String} (h : Dotted names plain) :
      Dotted (name :: names) (name :: plain)
  | dot {name : String} {names plain : List String} (h : Dotted (name :: names) plain) :
      Dotted ("." :: name :: names) plain

/-- Names without dots may be put in front of both lists. -/
theorem Dotted.append (first : List String) {names plain : List String} (h : Dotted names plain) :
    Dotted (first ++ names) (first ++ plain) := by
  induction first with
  | nil => exact h
  | cons name first ih => exact .cons name ih

/-- Names with dots among them are not all dots. -/
theorem Dotted.ne_nil {names plain : List String} (h : Dotted names plain) (hne : names ≠ []) :
    plain ≠ [] := by
  induction h with
  | nil => exact absurd rfl hne
  | cons => simp
  | dot _ ih => exact ih (by simp)

/-- Names that do not end in a dot are their other names with dots before them. -/
theorem dotted_filter {names : List String} (h : names.getLast? ≠ some ".") :
    Dotted names (names.filter (· ≠ ".")) := by
  induction names with
  | nil => exact .nil
  | cons name names ih =>
    by_cases hdot : name = "."
    · cases names with
      | nil => exact absurd (by rw [hdot]; rfl) h
      | cons next rest =>
        rw [hdot, List.filter_cons_of_neg (by simp)]
        exact .dot (ih (by simpa using h))
    · have hrest : names.getLast? ≠ some "." := by
        cases names with
        | nil => simp
        | cons next rest => simpa using h
      rw [List.filter_cons_of_pos (by simpa using hdot)]
      exact .cons name (ih hrest)

/-- A dot stays where it is, or nothing can be looked up there at all. -/
theorem turn_dot (t : FileTree) (done : List String) :
    t.turn done "." = .go done ∨ ∀ name, t.turn done name = .stop .notDirectory := by
  unfold turn
  split
  · exact Or.inl rfl
  · exact Or.inr fun _ => rfl

/-- A dot is no link. -/
theorem turn_dot_ne_link {target : String} : t.turn done "." ≠ .link target := by
  intro h
  rcases turn_dot t done with hgo | hstop
  · cases hgo.symm.trans h
  · cases (hstop ".").symm.trans h

/-- A look-up comes to the same result without the dots. -/
theorem Locates.of_dotted {names plain : List String} {result : Except FileError (List String)}
    (h : Locates t links done names result) (hdots : Dotted names plain) :
    Locates t links done plain result := by
  -- a dot stays where it is, or stops the look-up where the name after it would
  induction h generalizing plain with
  | arrive =>
    cases hdots
    exact .arrive
  | @stop links done rest name e h =>
    cases hdots with
    | cons => exact .stop h
    | dot hrest =>
      rcases turn_dot t done with hgo | hstop
      · rw [hgo] at h
        cases h
      · obtain ⟨first, others, rfl⟩ := List.exists_cons_of_ne_nil (hrest.ne_nil (by simp))
        rw [hstop "."] at h
        cases h
        exact .stop (hstop first)
  | @go links done rest place name result h _ ih =>
    cases hdots with
    | cons _ hrest => exact .go h (ih hrest)
    | dot hrest =>
      rcases turn_dot t done with hgo | hstop
      · rw [hgo] at h
        cases h
        exact ih hrest
      · rw [hstop "."] at h
        cases h
  | @link links done rest name target result h _ ih =>
    cases hdots with
    | cons _ hrest => exact .link h (ih (hrest.append _))
    | dot => exact absurd h turn_dot_ne_link
  | @loop done rest name target h =>
    cases hdots with
    | cons => exact .loop h
    | dot => exact absurd h turn_dot_ne_link

/-! ## Places -/

/-- A list of names that leads from the top to itself. -/
inductive IsPlace (t : FileTree) : List String → Prop
  | top : IsPlace t []
  | entry {done : List String} {name : String} (h : IsPlace t done)
      (hturn : t.turn done name = .go (done ++ [name])) : IsPlace t (done ++ [name])

/-- The place above a place is one. -/
theorem IsPlace.dropLast (h : IsPlace t done) : IsPlace t done.dropLast := by
  cases h with
  | top => exact .top
  | entry h _ => rwa [List.dropLast_concat]

/-- A name goes nowhere, to the place above or to the one below that has the name. -/
theorem turn_eq_go (h : t.turn done name = .go place) :
    place = done ∨ place = done.dropLast ∨ place = done ++ [name] := by
  have hturns := turns t done name
  rw [h] at hturns
  cases hturns with
  | stay => exact Or.inl rfl
  | up => exact Or.inr (Or.inl rfl)
  | entry => exact Or.inr (Or.inr rfl)

/-- A name goes down where it is the name of an entry. -/
theorem exists_entry_of_go (h : t.turn done name = .go (done ++ [name])) :
    ∃ entries node, t.root.get? done = some (.directory entries) ∧
      Members.get? entries name = some node := by
  have hturns := turns t done name
  rw [h] at hturns
  generalize hplace : done ++ [name] = place at hturns
  cases hturns with
  | stay => simp at hplace
  | up =>
    have hlength := congrArg List.length hplace
    simp at hlength
    omega
  | entry hdirectory hentry => exact ⟨_, _, hdirectory, hentry⟩

/-- A name is missing where a directory has no such entry. -/
theorem exists_of_missing (h : t.turn done name = .stop .missing) :
    ∃ entries, t.root.get? done = some (.directory entries) ∧
      Members.get? entries name = none := by
  have hturns := turns t done name
  rw [h] at hturns
  cases hturns with
  | missing hdirectory hentry => exact ⟨_, hdirectory, hentry⟩

/-- A name is a link where a directory has one of that name. -/
theorem exists_of_link {target : String} (h : t.turn done name = .link target) :
    ∃ entries, t.root.get? done = some (.directory entries) ∧
      Members.get? entries name = some (.link target) := by
  have hturns := turns t done name
  rw [h] at hturns
  cases hturns with
  | link hdirectory hentry => exact ⟨_, hdirectory, hentry⟩

/-- A name goes from a place to a place. -/
theorem IsPlace.of_turn (h : IsPlace t done) (hturn : t.turn done name = .go place) :
    IsPlace t place := by
  rcases turn_eq_go hturn with rfl | rfl | rfl
  · exact h
  · exact h.dropLast
  · exact .entry h hturn

/-- A look-up that starts at a place arrives at one. -/
theorem Locates.isPlace (h : Locates t links done todo (.ok place)) (hstart : IsPlace t done) :
    IsPlace t place := by
  generalize hresult : Except.ok place = result at h
  induction h with
  | arrive =>
    cases hresult
    exact hstart
  | stop => cases hresult
  | loop => cases hresult
  | go h _ ih => exact ih (hstart.of_turn h) hresult
  | link _ _ ih =>
    refine ih ?_ hresult
    split
    · exact .top
    · exact hstart

/-- The names of a place are followed without a link. -/
theorem IsPlace.locateWithin_append (h : IsPlace t done) (rest : List String) :
    t.locateWithin keepLast links [] (done ++ rest) = t.locateWithin keepLast links done rest := by
  induction h generalizing rest with
  | top => rfl
  | @entry done name _ hturn ih =>
    rw [List.append_assoc, ih, List.singleton_append, locateWithin_cons, hturn]

/-! ## Whole paths -/

/-- The text of a path is one that the system takes. -/
structure Admits (p : Path) : Prop where
  null : p.holdsNull = false
  length : p.toText.utf8ByteSize ≤ maxPathLength

variable {p : Path}

/-- A path that is admitted is looked up by its names from where it starts. -/
theorem Admits.locate_eq (h : Admits p) :
    t.locate p keepLast = t.locateWithin keepLast maxLinks (t.start p) p.segments := by
  unfold locate
  rw [h.null, if_neg (Nat.not_lt.mpr h.length)]
  rfl

/-- A path is admitted unless the look-up says that it is not. -/
theorem admits_of_locate {result : Except FileError (List String)}
    (h : t.locate p keepLast = result) (hnull : result ≠ .error .nullInName)
    (hlong : result ≠ .error .nameTooLong) : Admits p := by
  subst h
  unfold locate at hnull hlong
  split at hnull
  · exact absurd rfl hnull
  · rename_i hholds
    split at hnull
    · rename_i hsize
      rw [if_neg hholds, if_pos hsize] at hlong
      exact absurd rfl hlong
    · rename_i hsize
      exact ⟨Bool.eq_false_iff.mpr hholds, Nat.not_lt.mp hsize⟩

/-- A path is found at a place exactly when it is admitted and its way leads there. -/
theorem locate_eq_ok_iff : t.locate p false = .ok place ↔
    Admits p ∧ Locates t maxLinks (t.start p) p.segments (.ok place) := by
  constructor
  · intro h
    have hadmits := admits_of_locate h (by simp) (by simp)
    rw [hadmits.locate_eq, locateWithin_eq_iff] at h
    exact ⟨hadmits, h⟩
  · rintro ⟨hadmits, h⟩
    rw [hadmits.locate_eq, h.eq]

/-- A path is missing exactly when it is admitted and its way ends where nothing is. -/
theorem locate_eq_missing_iff : t.locate p false = .error .missing ↔
    Admits p ∧ Locates t maxLinks (t.start p) p.segments (.error .missing) := by
  constructor
  · intro h
    have hadmits := admits_of_locate h (by simp) (by simp)
    rw [hadmits.locate_eq, locateWithin_eq_iff] at h
    exact ⟨hadmits, h⟩
  · rintro ⟨hadmits, h⟩
    rw [hadmits.locate_eq, h.eq]

/-- Where the path of a text leads, the text leads as it stands, dots and all, unless it ends in a
dot or is too long. -/
theorem locate_ofRawText {s : String} (hne : s ≠ "")
    (hlast : (Path.ofRawText s).segments.getLast? ≠ some ".")
    (hlength : (Path.ofRawText s).toText.utf8ByteSize ≤ maxPathLength)
    (h : t.locate (Path.ofText s) false = .ok place) :
    t.locate (Path.ofRawText s) false = .ok place := by
  rw [Path.ofText_eq s hne] at h
  obtain ⟨hadmits, hlocates⟩ := locate_eq_ok_iff.mp h
  have hnull : (Path.ofRawText s).holdsNull = false := by
    have hplain := hadmits.null
    simp only [Path.holdsNull, List.any_eq_false, List.mem_filter, decide_eq_true_eq] at hplain ⊢
    intro name hname
    by_cases hdot : name = "."
    · rw [hdot]
      decide
    · exact hplain name ⟨hname, by simpa using hdot⟩
  have hraw := (locates_locateWithin t maxLinks (t.start (Path.ofRawText s))
    (Path.ofRawText s).segments).of_dotted (dotted_filter hlast)
  have hplace : t.locateWithin false maxLinks (t.start (Path.ofRawText s))
      (Path.ofRawText s).segments = .ok place := hraw.eq.symm.trans hlocates.eq
  exact locate_eq_ok_iff.mpr ⟨⟨hnull, hlength⟩, locateWithin_eq_iff.mp hplace⟩

/-- The root is where every path starts that does not start at the current directory. -/
theorem start_of_isAbsolute (h : p.isAbsolute = true) : t.start p = [] := by
  simp [start, h]

/-- Only where relative paths start depends on the current directory. -/
theorem locateWithin_seenFrom (directory : List String) :
    (t.seenFrom directory).locateWithin false links done todo =
      t.locateWithin false links done todo := by
  rw [locateWithin_eq_iff]
  generalize hresult : t.locateWithin false links done todo = result
  have hlocates := locateWithin_eq_iff.mp hresult
  clear hresult
  have hturn : ∀ done name, (t.seenFrom directory).turn done name = t.turn done name :=
    fun _ _ => rfl
  induction hlocates with
  | arrive => exact .arrive
  | stop h => exact .stop ((hturn _ _).trans h)
  | go h _ ih => exact .go ((hturn _ _).trans h) ih
  | link h _ ih => exact .link ((hturn _ _).trans h) ih
  | loop h => exact .loop ((hturn _ _).trans h)

/-- An absolute path is looked up alike from every directory. -/
theorem locate_seenFrom_of_isAbsolute (h : p.isAbsolute = true) (directory : List String) :
    (t.seenFrom directory).locate p false = t.locate p false := by
  unfold locate
  rw [locateWithin_seenFrom, start_of_isAbsolute h, start_of_isAbsolute h]

end LintGateway.FileTree
