import LintGateway.Path

/-!
# Paths seen from a base

A path that starts at a root is the same from every base. A relative one is put behind the base, so
putting it behind the same base again changes nothing only where the base starts at a root itself or
goes nowhere.
-/

set_option autoImplicit false

namespace LintGateway.Path

variable {base p : Path}

/-- An absolute path is joined to nothing. -/
@[simp] theorem join_of_isAbsolute (h : p.isAbsolute = true) : base.join p = p := by
  simp [join, h]

/-- A relative path goes on from the base. -/
theorem join_of_relative (h : p.isAbsolute = false) :
    base.join p = { base with segments := base.segments ++ p.segments } := by
  simp [join, h]

/-- A path is relative exactly when it is anchored here. -/
theorem isAbsolute_eq_false_iff : p.isAbsolute = false ↔ p.anchor = .here := by
  simp [isAbsolute]

/-- A joined path is absolute when one of the two is. -/
@[simp] theorem isAbsolute_join (base p : Path) :
    (base.join p).isAbsolute = (base.isAbsolute || p.isAbsolute) := by
  cases h : p.isAbsolute with
  | true => simp [h]
  | false =>
    rw [join_of_relative h, Bool.or_false]
    rfl

/-- Nothing is changed by the base that is the directory in which paths are used. -/
@[simp] theorem here_join (p : Path) : join ⟨.here, []⟩ p = p := by
  cases h : p.isAbsolute with
  | true => exact join_of_isAbsolute h
  | false =>
    rw [join_of_relative h, List.nil_append, ← isAbsolute_eq_false_iff.mp h]

/-- A relative path that is joined twice has the base in it twice. -/
theorem join_join_of_relative (hbase : base.isAbsolute = false) (h : p.isAbsolute = false) :
    base.join (base.join p) = ⟨.here, base.segments ++ (base.segments ++ p.segments)⟩ := by
  have hjoin : (base.join p).isAbsolute = false := by simp [hbase, h]
  rw [join_of_relative hjoin, join_of_relative h, isAbsolute_eq_false_iff.mp hbase]

/-- To start a path at a base a second time changes nothing exactly when the path or the base starts
at a root, or when the base goes nowhere. -/
theorem join_join_eq_iff (base p : Path) :
    base.join (base.join p) = base.join p ↔
      p.isAbsolute = true ∨ base.isAbsolute = true ∨ base.segments = [] := by
  cases h : p.isAbsolute with
  | true => simp [h]
  | false =>
    cases hbase : base.isAbsolute with
    | true => simp [hbase]
    | false =>
      rw [join_join_of_relative hbase h, join_of_relative h, isAbsolute_eq_false_iff.mp hbase]
      simp


/-! ## Paths and their texts -/

/-- The names on a path are those of a text that was read: none is empty or a dot or holds a slash.
-/
def IsPlain (p : Path) : Prop := ∀ name ∈ p.segments, name ≠ "" ∧ name ≠ "." ∧ '/' ∉ name.toList

/-- The path of a text has no empty and no dotted segment. -/
theorem isPlain_ofText (s : String) : (ofText s).IsPlain := by
  intro name hname
  obtain ⟨hpiece, hkept⟩ := List.mem_filter.mp hname
  obtain ⟨cs, hcs, rfl⟩ := List.mem_map.mp hpiece
  simp only [ne_eq, Bool.and_eq_true, decide_eq_true_eq] at hkept
  refine ⟨hkept.1, hkept.2, ?_⟩
  rw [String.toList_ofList]
  exact Text.not_mem_of_mem_splitChars hcs

/-- Joining keeps paths plain. -/
theorem IsPlain.join (hbase : base.IsPlain) (h : p.IsPlain) : (base.join p).IsPlain := by
  unfold Path.join
  split
  · exact h
  · exact List.forall_mem_append.mpr ⟨hbase, h⟩

/-- The text of a path is its anchor and its segments with slashes between them. -/
theorem toList_toText (h : p.isAbsolute = true ∨ p.segments ≠ []) :
    p.toText.toList =
      (anchorText p.anchor).toList ++ ['/'].intercalate (p.segments.map String.toList) := by
  have htext : p.toText = anchorText p.anchor ++ "/".intercalate p.segments := by
    obtain ⟨anchor, segments⟩ := p
    unfold toText
    split
    · rename_i hhere hnil
      simp only at hhere hnil
      simp [isAbsolute, hhere, hnil] at h
    · rfl
  rw [htext, String.toList_append, String.toList_intercalate]
  rfl

/-- The slashes in front of a path, as pieces before its names. -/
theorem splitChars_anchorText (anchor : Anchor) (cs : List Char) :
    ∃ k, (anchorText anchor).toList = List.replicate k '/' ∧ anchorOfSlashes k = anchor ∧
      Text.splitChars '/' ((anchorText anchor).toList ++ cs) =
        List.replicate k [] ++ Text.splitChars '/' cs := by
  cases anchor with
  | here => exact ⟨0, rfl, rfl, rfl⟩
  | root => exact ⟨1, rfl, rfl, Text.splitChars_mark '/' cs⟩
  | twoSlashRoot =>
    refine ⟨2, rfl, rfl, ?_⟩
    show Text.splitChars '/' ('/' :: '/' :: cs) = _
    rw [Text.splitChars_mark, Text.splitChars_mark]
    rfl

/-- The slashes before a text that starts with none are all of its slashes at the start. -/
theorem takeWhile_slashes (k : Nat) {cs : List Char} (h : cs.head? ≠ some '/') :
    (List.replicate k '/' ++ cs).takeWhile (· = '/') = List.replicate k '/' := by
  rw [List.takeWhile_append_of_pos (by simp)]
  cases cs with
  | nil => simp
  | cons c cs =>
    have hc : c ≠ '/' := fun hc => h (by rw [hc]; rfl)
    simp [hc]

/-- A plain path has no segment to leave out. -/
theorem IsPlain.filter_segments (h : p.IsPlain) : p.segments.filter (· ≠ "") = p.segments :=
  List.filter_eq_self.mpr fun name hname => by simpa using (h name hname).1

/-- The names of a path, put together, start with a character of the first one. -/
theorem IsPlain.exists_head? (h : p.IsPlain) (hne : p.segments ≠ []) :
    ∃ c, (['/'].intercalate (p.segments.map String.toList)).head? = some c ∧ c ≠ '/' := by
  obtain ⟨first, rest, hsegments⟩ := List.exists_cons_of_ne_nil hne
  obtain ⟨hfirst, -, hslash⟩ := h first (hsegments ▸ List.mem_cons_self)
  obtain ⟨c, cs, hchars⟩ : ∃ c cs, first.toList = c :: cs :=
    List.exists_cons_of_ne_nil fun hnil => hfirst (String.toList_eq_nil_iff.mp hnil)
  refine ⟨c, ?_, ?_⟩
  · rw [hsegments]
    cases rest <;> simp [List.intercalate, hchars]
  · rintro rfl
    rw [hchars] at hslash
    exact hslash List.mem_cons_self

/-- The text of a path is cut into its names, after an empty piece for each slash in front. -/
theorem exists_split_toText (hplain : p.IsPlain) (hne : p.segments ≠ []) :
    ∃ k, anchorOfSlashes k = p.anchor ∧
      Text.split '/' p.toText = List.replicate k "" ++ p.segments ∧
      p.toText.toList.takeWhile (· = '/') = List.replicate k '/' := by
  have hlist := toList_toText (Or.inr hne)
  obtain ⟨k, hslashes, hanchor, hsplit⟩ :=
    splitChars_anchorText p.anchor (['/'].intercalate (p.segments.map String.toList))
  have hpieces : Text.splitChars '/' (['/'].intercalate (p.segments.map String.toList)) =
      p.segments.map String.toList := by
    refine Text.splitChars_intercalate (by simpa using hne) ?_
    intro piece hpiece
    obtain ⟨name, hname, rfl⟩ := List.mem_map.mp hpiece
    exact (hplain name hname).2.2
  obtain ⟨c, hhead, hslash⟩ := hplain.exists_head? hne
  refine ⟨k, hanchor, ?_, ?_⟩
  · unfold Text.split
    rw [hlist, hsplit, hpieces]
    simp [List.map_map, Function.comp_def]
  · rw [hlist, hslashes]
    refine takeWhile_slashes k ?_
    rw [hhead]
    exact fun heq => hslash (Option.some.inj heq)

/-- A path is what its own text leads to, unless it is the empty relative one, whose text is a dot.
-/
theorem ofRawText_toText (hplain : p.IsPlain) (h : p.isAbsolute = true ∨ p.segments ≠ []) :
    ofRawText p.toText = p := by
  by_cases hne : p.segments = []
  · obtain ⟨anchor, segments⟩ := p
    obtain rfl : segments = [] := hne
    cases anchor with
    | here => simp [isAbsolute] at h
    | root | twoSlashRoot => rfl
  · obtain ⟨k, hanchor, hparts, hslashes⟩ := exists_split_toText hplain hne
    -- no name is empty, so the text does not end in a slash, which would be read as a dot
    have hlast : (List.replicate k "" ++ p.segments).getLast? ≠ some "" := by
      rw [List.getLast?_append, Option.or_of_isSome (by simpa using hne)]
      intro hlast
      exact (hplain "" (List.mem_of_mem_getLast? hlast)).1 rfl
    have hempty : p.toText.isEmpty = false := by
      rw [String.isEmpty_eq_false_iff]
      intro hempty
      rw [hempty] at hparts
      have hsingle : [""] = List.replicate k "" ++ p.segments := hparts
      rw [← hsingle] at hlast
      exact hlast rfl
    have hnames : (List.replicate k "" ++ p.segments).filter (· ≠ "") = p.segments := by
      rw [List.filter_append, hplain.filter_segments]
      simp
    unfold ofRawText
    simp only [hparts, hempty, hnames, hlast, hslashes, List.length_replicate, hanchor]
    simp

/-- The text of a path has a slash in it when the path starts at a root or has more than one name.
-/
theorem contains_slash_toText (h : p.isAbsolute = true ∨ 2 ≤ p.segments.length) :
    p.toText.toList.contains '/' = true := by
  obtain ⟨anchor, segments⟩ := p
  have hlist := toList_toText (h.imp_right fun hlength hnil => by rw [hnil] at hlength; cases hlength)
  rw [List.contains_iff_mem, hlist, List.mem_append]
  rcases h with habsolute | hlength
  · left
    cases anchor with
    | here => cases habsolute
    | root | twoSlashRoot => simp [anchorText]
  · right
    match segments, hlength with
    | first :: second :: rest, _ => simp [List.intercalate]

/-- The text of a relative path with at most one name is this name, or a dot. -/
theorem toText_of_short (hrelative : p.isAbsolute = false) (hplain : p.IsPlain)
    (h : p.segments.length < 2) : p.toText.toList.contains '/' = false := by
  obtain ⟨anchor, segments⟩ := p
  obtain rfl := isAbsolute_eq_false_iff.mp hrelative
  match segments, h with
  | [], _ => rfl
  | [name], _ =>
    rw [Bool.eq_false_iff, ne_eq, List.contains_iff_mem, toList_toText (Or.inr (by simp))]
    simpa [List.intercalate, anchorText] using (hplain name (by simp)).2.2

/-- Reading a path from a text drops the dots in it that the system would look up. -/
theorem ofText_eq (s : String) (h : s ≠ "") :
    ofText s = { ofRawText s with segments := (ofRawText s).segments.filter (· ≠ ".") } := by
  have hempty : s.isEmpty = false := by rwa [String.isEmpty_eq_false_iff]
  unfold ofText ofRawText
  simp only [hempty, Bool.false_eq_true, if_false, List.filter_append, List.filter_filter]
  split <;> simp [Bool.and_comm]

/-- A path is read back from its own text. -/
theorem ofText_toText (hplain : p.IsPlain) (h : p.isAbsolute = true ∨ p.segments ≠ []) :
    ofText p.toText = p := by
  have hne : p.toText ≠ "" := by
    intro hempty
    have hraw := ofRawText_toText hplain h
    rw [hempty] at hraw
    have hnames := hplain "" (by rw [← hraw]; decide)
    exact hnames.1 rfl
  rw [ofText_eq _ hne, ofRawText_toText hplain h]
  have hkept : p.segments.filter (· ≠ ".") = p.segments :=
    List.filter_eq_self.mpr fun name hname => by simpa using (hplain name hname).2.1
  rw [hkept]

/-- Dropping segments leaves a path as absolute as it was. -/
theorem isAbsolute_ofText (s : String) : (ofText s).isAbsolute = (ofRawText s).isAbsolute := by
  by_cases h : s = ""
  · rw [h]
    rfl
  · rw [ofText_eq s h]
    generalize ofRawText s = p
    rfl

/-- A path is absolute exactly when its text starts with a slash. -/
theorem isAbsolute_ofText_iff (s : String) :
    (ofText s).isAbsolute = true ↔ s.toList.head? = some '/' := by
  have hanchor : (ofText s).isAbsolute = true ↔
      anchorOfSlashes (s.toList.takeWhile (· = '/')).length ≠ .here := by simp [isAbsolute, ofText]
  rw [hanchor]
  cases s.toList with
  | nil => simp [anchorOfSlashes]
  | cons c cs =>
    by_cases hc : c = '/'
    · rw [List.takeWhile_cons_of_pos (by simpa using hc), List.length_cons, hc]
      unfold anchorOfSlashes
      split <;> simp_all
    · rw [List.takeWhile_cons_of_neg (by simpa using hc)]
      simp [anchorOfSlashes, hc]

end LintGateway.Path
