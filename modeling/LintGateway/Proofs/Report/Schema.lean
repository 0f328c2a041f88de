import LintGateway.Proofs.Json.Document
import LintGateway.Proofs.Traversal
import LintGateway.Report.Reader

/-!
# The schema of reports

A report is an array of objects, one for each file, and each of them holds an array of objects, one
for each finding. The predicates `IsReport`, `IsEntry` and `IsFinding` say which members these
objects must have and of which kind; `SaysEntry` and `SaysFinding` say which records they stand for.
The reader is compared with both: it accepts exactly the reports (`ofText_accepts_schema`), and then
gives the record of each object, in the order of the document.

Reading copies the path of a file onto its findings before they are read. What makes the comparison
go through is that this copy touches no member that the schema speaks of: `source_path` is no name
of a member of a finding.
-/

set_option autoImplicit false

namespace LintGateway.Report

open Schema

/-! ## What the schema says -/

/-- The member of a name, or of another name when there is none of the first. -/
def memberOr (t : Value.Table) (name other : String) : Option Value :=
  (Members.get? t name).or (Members.get? t other)

/-- An object for a finding: its line is an integer from one on, its message and its rule are texts,
and its severity, if it has one, is null or a text. -/
def IsFinding (v : Value) : Prop :=
  ∃ t, v = .record t ∧
    (∃ n : Int, Members.get? t "line" = some (.int n) ∧ 1 ≤ n) ∧
    (∃ s, memberOr t "text" "message" = some (.text s)) ∧
    (∃ s, memberOr t "rule" "external_rule_id" = some (.text s)) ∧
    (Members.get? t "severity" = none ∨ Members.get? t "severity" = some .null ∨
      ∃ s, Members.get? t "severity" = some (.text s))

/-- An object for a file: its path is a text, and its findings are an array of findings. -/
def IsEntry (v : Value) : Prop :=
  ∃ t, v = .record t ∧
    (∃ s, memberOr t "source" "source_path" = some (.text s)) ∧
    ∃ ws, memberOr t "warnings" "findings" = some (.list ws) ∧ ∀ w ∈ ws, IsFinding w

/-- A report: an array of objects for files. -/
def IsReport (v : Value) : Prop := ∃ vs, v = .list vs ∧ ∀ e ∈ vs, IsEntry e

/-- An object says a finding in a file: the values of its members are those of the finding. -/
def SaysFinding (source : String) (v : Value) (f : Finding) : Prop :=
  ∃ t, v = .record t ∧ f.sourcePath = source ∧
    Members.get? t "line" = some (.int f.line.val) ∧
    memberOr t "text" "message" = some (.text f.message) ∧
    memberOr t "rule" "external_rule_id" = some (.text f.externalId) ∧
    ((Members.get? t "severity" = none ∧ f.severity = none) ∨
      (Members.get? t "severity" = some .null ∧ f.severity = none) ∨
      ∃ s, Members.get? t "severity" = some (.text s) ∧ f.severity = some s)

/-- An object says the findings in a file: its path, and one finding for each object in its array,
in their order and in that file. -/
def SaysEntry (v : Value) (e : FileFindings) : Prop :=
  ∃ t, v = .record t ∧
    memberOr t "source" "source_path" = some (.text e.sourcePath) ∧
    ∃ ws, memberOr t "warnings" "findings" = some (.list ws) ∧
      List.Forall₂ (SaysFinding e.sourcePath) ws e.findings

/-! ## Members by either name -/

/-- The member found under one name, with the name. -/
theorem findMember_single (t : Value.Table) (name : String) :
    findMember t [name] = (Members.get? t name).map fun v => (name, v) := by
  unfold findMember
  cases h : Members.get? t name <;> simp [List.findSome?, h]

/-- The member found under one of two names, with the name. -/
theorem findMember_pair (t : Value.Table) (name other : String) :
    findMember t [name, other] =
      match Members.get? t name with
      | some v => some (name, v)
      | none => (Members.get? t other).map fun v => (other, v) := by
  unfold findMember
  cases h : Members.get? t name <;> cases h' : Members.get? t other <;>
    simp [List.findSome?, h, h']

/-- What is found under one of two names is the member of the first, or else that of the second. -/
theorem exists_findMember_iff (t : Value.Table) (name other : String) (p : Value → Prop) :
    (∃ n v, findMember t [name, other] = some (n, v) ∧ p v) ↔
      ∃ v, memberOr t name other = some v ∧ p v := by
  rw [findMember_pair]
  unfold memberOr
  cases h : Members.get? t name with
  | some v => simp
  | none => cases h' : Members.get? t other <;> simp

/-- A member that goes by two names is read when the one found by either is. -/
theorem required_pair_eq_sound_iff {α : Type} (t : Value.Table) (name other : String)
    (read : Value → Checked α) (a : α) :
    required t [name, other] read = .sound a ↔
      ∃ v, memberOr t name other = some v ∧ read v = .sound a := by
  rw [required_eq_sound_iff]
  exact exists_findMember_iff t name other fun v => read v = .sound a

/-- Setting a member of another name does not change what is found under two names. -/
theorem memberOr_put {t : Value.Table} {name other changed : String} (v : Value)
    (hname : name ≠ changed) (hother : other ≠ changed) :
    memberOr (Members.put t changed v) name other = memberOr t name other := by
  simp only [memberOr, Members.get?_put, if_neg hname, if_neg hother]

/-! ## Findings -/

/-- A finding is read from the members of an object exactly when they are what the record holds. -/
theorem read_finding_iff (t : Value.Table) (f : Finding) :
    Finding.read .document (.record t) = .sound f ↔
      Members.get? t "source_path" = some (.text f.sourcePath) ∧
      Members.get? t "line" = some (.int f.line.val) ∧
      memberOr t "text" "message" = some (.text f.message) ∧
      memberOr t "rule" "external_rule_id" = some (.text f.externalId) ∧
      ((Members.get? t "severity" = none ∧ f.severity = none) ∨
        (Members.get? t "severity" = some .null ∧ f.severity = none) ∨
        ∃ s, Members.get? t "severity" = some (.text s) ∧ f.severity = some s) := by
  unfold Finding.read
  simp only [readRecord, Checked.seq_eq_sound_iff, Checked.map_eq_sound_iff,
    required_single_eq_sound_iff, required_pair_eq_sound_iff, optional_eq_sound_iff,
    readText_eq_sound_iff, readLineNumber_eq_sound_iff, readStrictInt_eq_sound_iff,
    readOptional_eq_sound_iff]
  constructor
  · rintro ⟨_, severity, ⟨_, rule, ⟨_, message, ⟨_, line, ⟨source, ⟨_, hsource, rfl⟩, rfl⟩,
      ⟨_, hline, rfl⟩, rfl⟩, ⟨_, hmessage, rfl⟩, rfl⟩, ⟨_, hrule, rfl⟩, rfl⟩, hseverity, rfl⟩
    refine ⟨hsource, hline, hmessage, hrule, ?_⟩
    rcases hseverity with ⟨hnone, rfl⟩ | ⟨v, hv, ⟨rfl, rfl⟩ | ⟨-, s, rfl, rfl⟩⟩
    · exact Or.inl ⟨hnone, rfl⟩
    · exact Or.inr (Or.inl ⟨hv, rfl⟩)
    · exact Or.inr (Or.inr ⟨s, hv, rfl⟩)
  · rintro ⟨hsource, hline, hmessage, hrule, hseverity⟩
    refine ⟨_, f.severity, ⟨_, f.externalId, ⟨_, f.message, ⟨_, f.line, ⟨f.sourcePath,
      ⟨_, hsource, rfl⟩, rfl⟩, ⟨_, hline, rfl⟩, rfl⟩, ⟨_, hmessage, rfl⟩, rfl⟩,
      ⟨_, hrule, rfl⟩, rfl⟩, ?_, rfl⟩
    rcases hseverity with ⟨hnone, hf⟩ | ⟨hnull, hf⟩ | ⟨s, hs, hf⟩
    · exact Or.inl ⟨hnone, hf⟩
    · exact Or.inr ⟨_, hnull, Or.inl ⟨rfl, hf⟩⟩
    · exact Or.inr ⟨_, hs, Or.inr ⟨by simp, s, rfl, hf⟩⟩

/-- An object of a report that carries the path of its file is read as the finding that it says. -/
theorem read_stamped_iff (source : String) (v : Value) (f : Finding) :
    Finding.read .document (FileFindings.stamp source v) = .sound f ↔ SaysFinding source v f := by
  unfold SaysFinding
  cases v with
  | record t =>
    have hother : ∀ name, name ≠ "source_path" →
        Members.get? (Members.put t "source_path" (.text source)) name = Members.get? t name := by
      intro name hname
      rw [Members.get?_put, if_neg hname]
    have hsource : Members.get? (Members.put t "source_path" (.text source)) "source_path" =
        some (.text f.sourcePath) ↔ f.sourcePath = source := by
      rw [Members.get?_put, if_pos rfl]
      simp [eq_comm]
    show Finding.read .document (.record (Members.put t "source_path" (.text source))) = _ ↔ _
    rw [read_finding_iff, hsource, hother "line" (by decide), hother "severity" (by decide),
      memberOr_put _ (by decide) (by decide), memberOr_put _ (by decide) (by decide)]
    simp
  | _ => simp [FileFindings.stamp, Finding.read, readRecord]

/-! ## Files -/

/-- The member found under one of two names has one of them, and is what is found there. -/
theorem findMember_pair_eq_some {t : Value.Table} {name other n : String} {v : Value}
    (h : findMember t [name, other] = some (n, v)) :
    (n = name ∨ (n = other ∧ Members.get? t name = none)) ∧ memberOr t name other = some v := by
  rw [findMember_pair] at h
  unfold memberOr
  cases hname : Members.get? t name with
  | some w =>
    simp only [hname, Option.some.injEq, Prod.mk.injEq] at h
    simp [h.1, h.2]
  | none =>
    simp only [hname, Option.map_eq_some_iff, Prod.mk.injEq] at h
    obtain ⟨w, hw, rfl, rfl⟩ := h
    simp [hw]

/-- A member found under one of two names is found there with the value it is set to. -/
theorem findMember_put_found {t : Value.Table} {name other n : String} {v : Value}
    (h : findMember t [name, other] = some (n, v)) (w : Value) :
    findMember (Members.put t n w) [name, other] = some (n, w) := by
  rcases (findMember_pair_eq_some h).1 with rfl | ⟨rfl, hnone⟩
  · rw [findMember_pair, Members.get?_put, if_pos rfl]
  · by_cases hname : name = n
    · rw [findMember_pair, Members.get?_put, if_pos hname, hname]
    · rw [findMember_pair, Members.get?_put, if_neg hname, hnone, Members.get?_put, if_pos rfl]
      rfl

/-- Setting a member of another name does not change which one of two names is found. -/
theorem findMember_put_of_ne {t : Value.Table} {name other changed : String} (v : Value)
    (hname : name ≠ changed) (hother : other ≠ changed) :
    findMember (Members.put t changed v) [name, other] = findMember t [name, other] := by
  rw [findMember_pair, findMember_pair, Members.get?_put, if_neg hname, Members.get?_put,
    if_neg hother]

/-- Copying the path onto the findings leaves the name and the value of the path as they are. -/
theorem findMember_shareSource (t : Value.Table) :
    findMember (FileFindings.shareSource t) FileFindings.sourceNames =
      findMember t FileFindings.sourceNames := by
  unfold FileFindings.shareSource
  split
  · rename_i name ws _ hfindings
    rcases (findMember_pair_eq_some hfindings).1 with rfl | ⟨rfl, -⟩
    · exact findMember_put_of_ne _ (by decide) (by decide)
    · exact findMember_put_of_ne _ (by decide) (by decide)
  · rfl

/-- A path that is a text is copied onto the findings of an array, which keeps its name. -/
theorem findMember_shareSource_of_list {t : Value.Table} {name n source : String}
    {ws : List Value} (hsource : findMember t FileFindings.sourceNames = some (name, .text source))
    (hfindings : findMember t FileFindings.findingsNames = some (n, .list ws)) :
    findMember (FileFindings.shareSource t) FileFindings.findingsNames =
      some (n, .list (ws.map (FileFindings.stamp source))) := by
  have hshared : FileFindings.shareSource t =
      Members.put t n (.list (ws.map (FileFindings.stamp source))) := by
    simp only [FileFindings.shareSource, hsource, hfindings]
  rw [hshared]
  exact findMember_put_found hfindings _

/-- What is no array of findings is left as it is. -/
theorem shareSource_of_not_list {t : Value.Table}
    (h : ∀ n ws, findMember t FileFindings.findingsNames ≠ some (n, .list ws)) :
    FileFindings.shareSource t = t := by
  unfold FileFindings.shareSource
  split
  · rename_i hfindings
    exact absurd hfindings (h _ _)
  · rfl

/-- Copying the path onto the findings leaves the path as it is. -/
theorem memberOr_shareSource (t : Value.Table) :
    memberOr (FileFindings.shareSource t) "source" "source_path" =
      memberOr t "source" "source_path" := by
  unfold FileFindings.shareSource
  split
  · rename_i name ws _ hfindings
    obtain ⟨hname, -⟩ := findMember_pair_eq_some hfindings
    rcases hname with rfl | ⟨rfl, -⟩
    · exact memberOr_put _ (by decide) (by decide)
    · exact memberOr_put _ (by decide) (by decide)
  · rfl

/-- A path that is a text is copied onto the findings of an array. -/
theorem memberOr_shareSource_of_list {t : Value.Table} {source : String} {ws : List Value}
    (hsource : memberOr t "source" "source_path" = some (.text source))
    (hfindings : memberOr t "warnings" "findings" = some (.list ws)) :
    memberOr (FileFindings.shareSource t) "warnings" "findings" =
      some (.list (ws.map (FileFindings.stamp source))) := by
  have found : ∀ name other v, memberOr t name other = some v →
      ∃ n, findMember t [name, other] = some (n, v) := by
    intro name other v hv
    obtain ⟨n, w, hn, rfl⟩ :=
      (exists_findMember_iff t name other (· = v)).mpr ⟨v, hv, rfl⟩
    exact ⟨n, hn⟩
  obtain ⟨n, hn⟩ := found _ _ _ hsource
  obtain ⟨m, hm⟩ := found _ _ _ hfindings
  have hshared : FileFindings.shareSource t =
      Members.put t m (.list (ws.map (FileFindings.stamp source))) := by
    simp only [FileFindings.shareSource, FileFindings.sourceNames, FileFindings.findingsNames, hn,
      hm]
  rw [hshared]
  rcases (findMember_pair_eq_some hm).1 with rfl | ⟨rfl, hnone⟩
  · simp [memberOr, Members.get?_put]
  · simp [memberOr, Members.get?_put, hnone]

/-- Findings that are no array are left as they are. -/
theorem memberOr_shareSource_of_not_list {t : Value.Table}
    (h : ∀ ws, memberOr t "warnings" "findings" ≠ some (.list ws)) :
    memberOr (FileFindings.shareSource t) "warnings" "findings" =
      memberOr t "warnings" "findings" := by
  unfold FileFindings.shareSource
  split
  · rename_i ws _ hfindings
    exact absurd (findMember_pair_eq_some hfindings).2 (h ws)
  · rfl

/-- What is found under one of two names in a document is a document. -/
theorem isDocument_of_memberOr {t : Value.Table} (hdoc : Json.IsDocument (.record t))
    {name other : String} {v : Value} (h : memberOr t name other = some v) :
    Json.IsDocument v := by
  unfold memberOr at h
  cases hname : Members.get? t name with
  | some w =>
    rw [hname, Option.some_or, Option.some.injEq] at h
    exact h ▸ hdoc.of_get? hname
  | none =>
    rw [hname, Option.none_or] at h
    exact hdoc.of_get? h

/-- A sequence of a document is read exactly when it is an array and its items are read. -/
theorem readSequence_eq_sound_iff {α : Type} {v : Value} (hdoc : Json.IsDocument v)
    (read : Value → Checked α) (as : List α) :
    readSequence .document read v = .sound as ↔
      ∃ vs, v = .list vs ∧ List.Forall₂ (fun v a => read v = .sound a) vs as := by
  cases v with
  | list vs => simp [readSequence, Checked.each_eq_sound_iff]
  | tuple vs => exact absurd hdoc Json.IsDocument.not_tuple
  | _ => simp [readSequence]

/-- An object of a report is read as the findings that it says. -/
theorem read_entry_iff {v : Value} (hdoc : Json.IsDocument v) (e : FileFindings) :
    FileFindings.read .document v = .sound e ↔ SaysEntry v e := by
  unfold FileFindings.read SaysEntry
  rw [readRecord_eq_sound_iff]
  refine exists_congr fun t => and_congr_right ?_
  rintro rfl
  simp only [Checked.seq_eq_sound_iff, Checked.map_eq_sound_iff, FileFindings.sourceNames,
    FileFindings.findingsNames, required_pair_eq_sound_iff, readText_eq_sound_iff,
    memberOr_shareSource]
  constructor
  · rintro ⟨_, findings, ⟨source, ⟨_, hsource, rfl⟩, rfl⟩, ⟨w, hw, hread⟩, rfl⟩
    -- the findings are an array: anything else is left as it is, and then refused
    have hlist : ∃ ws, memberOr t "warnings" "findings" = some (.list ws) := by
      by_contra hnone
      push Not at hnone
      rw [memberOr_shareSource_of_not_list hnone] at hw
      obtain ⟨ws, rfl, -⟩ :=
        (readSequence_eq_sound_iff (isDocument_of_memberOr hdoc hw) _ _).mp hread
      exact hnone ws hw
    obtain ⟨ws, hws⟩ := hlist
    rw [memberOr_shareSource_of_list hsource hws, Option.some.injEq] at hw
    subst hw
    refine ⟨hsource, ws, hws, ?_⟩
    simp only [readSequence, Checked.each_eq_sound_iff, List.forall₂_map_left_iff] at hread
    exact hread.imp fun v f => (read_stamped_iff source v f).mp
  · rintro ⟨hsource, ws, hws, hsays⟩
    refine ⟨_, e.findings, ⟨e.sourcePath, ⟨_, hsource, rfl⟩, rfl⟩,
      ⟨_, memberOr_shareSource_of_list hsource hws, ?_⟩, rfl⟩
    simp only [readSequence, Checked.each_eq_sound_iff, List.forall₂_map_left_iff]
    exact hsays.imp fun v f => (read_stamped_iff e.sourcePath v f).mpr

/-! ## Reports -/

/-- A document is read as the findings that its objects say. -/
theorem ofDocument_iff {v : Value} (hdoc : Json.IsDocument v) (found : List FileFindings) :
    ofDocument v = .sound found ↔ ∃ vs, v = .list vs ∧ List.Forall₂ SaysEntry vs found := by
  unfold ofDocument
  rw [readSequence_eq_sound_iff hdoc]
  refine exists_congr fun vs => and_congr_right ?_
  rintro rfl
  have hitems := hdoc.of_list
  clear hdoc
  induction vs generalizing found with
  | nil => cases found <;> simp
  | cons v vs ih =>
    have hfirst := read_entry_iff (hitems v List.mem_cons_self)
    have hrest := fun rest => ih rest fun w hw => hitems w (List.mem_cons_of_mem v hw)
    rw [List.forall₂_cons_left_iff, List.forall₂_cons_left_iff]
    refine exists_congr fun e => exists_congr fun rest => ?_
    exact and_congr (hfirst e) (and_congr (hrest rest) Iff.rfl)

/-! ## Texts -/

/-- Byte order marks, as many as wanted. -/
def marks (count : Nat) : String := String.ofList (List.replicate count '\ufeff')

/-- Marks in front of a text are dropped with those at its start. -/
theorem dropMarks_marks_append (count : Nat) (s : String) :
    dropMarks (marks count ++ s) = dropMarks s := by
  have hmarks : ∀ c ∈ List.replicate count '\ufeff', decide (c = '\ufeff') = true := by
    intro c hc
    simpa using List.eq_of_mem_replicate hc
  unfold dropMarks marks
  rw [String.toList_append, String.toList_ofList, List.dropWhile_append_of_pos hmarks]

/-- A text is a number of marks and what is left when they are dropped, which starts with none. -/
theorem exists_eq_marks_append (s : String) :
    ∃ count, s = marks count ++ dropMarks s ∧ (dropMarks s).toList.head? ≠ some '\ufeff' := by
  have hall : ∀ c ∈ s.toList.takeWhile fun c => decide (c = '\ufeff'), c = '\ufeff' := by
    intro c hc
    exact of_decide_eq_true (List.all_eq_true.mp List.all_takeWhile c hc)
  refine ⟨(s.toList.takeWhile fun c => decide (c = '\ufeff')).length, ?_, ?_⟩
  · unfold marks dropMarks
    rw [← List.eq_replicate_of_mem hall, ← String.ofList_append, List.takeWhile_append_dropWhile,
      String.ofList_toList]
  · unfold dropMarks
    rw [String.toList_ofList]
    intro hhead
    have hnot := List.head?_dropWhile_not (fun c => decide (c = '\ufeff')) s.toList
    rw [hhead] at hnot
    exact absurd hnot (by decide)

/-- A blank text stays blank without its marks. -/
theorem isBlankText_dropMarks {s : String} (h : Text.isBlankText s = true) :
    Text.isBlankText (dropMarks s) = true := by
  unfold Text.isBlankText dropMarks
  rw [String.toList_ofList, List.all_eq_true]
  intro c hc
  have hmem : c ∈ s.toList := (List.dropWhile_suffix _).subset hc
  exact List.all_eq_true.mp h c hmem

/-- A text is read as the findings that its document says. -/
theorem ofText_eq_ok_iff (s : String) (found : List FileFindings) :
    ofText s = .ok found ↔
      ∃ vs, Json.read? (dropMarks s) = some (.list vs) ∧ List.Forall₂ SaysEntry vs found := by
  unfold ofText
  by_cases hblank : Text.isBlankText s = true
  · have hnone := Json.read?_eq_none_of_blank (isBlankText_dropMarks hblank)
    simp [hblank, hnone]
  · simp only [hblank, Bool.false_eq_true, if_false]
    cases hread : Json.read? (dropMarks s) with
    | none => simp
    | some v =>
      have hvalue := ofDocument_iff (Json.isDocument_of_read? hread) found
      constructor
      · intro hfound
        have hsound : ofDocument v = .sound found := by
          cases hv : ofDocument v with
          | sound f => simpa [hv] using hfound
          | faulty first others => simp [hv] at hfound
        obtain ⟨vs, rfl, hsays⟩ := hvalue.mp hsound
        exact ⟨vs, rfl, hsays⟩
      · rintro ⟨vs, heq, hsays⟩
        have hv : v = .list vs := Option.some.inj heq
        simp [hvalue.mpr ⟨vs, hv, hsays⟩]

/-! ## What the schema admits is what can be said -/

/-- The objects that say a finding, in whatever file, are those that the schema admits. -/
theorem exists_saysFinding_iff (source : String) (v : Value) :
    (∃ f, SaysFinding source v f) ↔ IsFinding v := by
  constructor
  · rintro ⟨f, t, rfl, -, hline, hmessage, hrule, hseverity⟩
    have hpositive : (1 : Int) ≤ f.line.val := by
      have := f.line.property
      omega
    refine ⟨t, rfl, ⟨_, hline, hpositive⟩, ⟨_, hmessage⟩, ⟨_, hrule⟩, ?_⟩
    rcases hseverity with ⟨hnone, -⟩ | ⟨hnull, -⟩ | ⟨s, hs, -⟩
    · exact Or.inl hnone
    · exact Or.inr (Or.inl hnull)
    · exact Or.inr (Or.inr ⟨s, hs⟩)
  · rintro ⟨t, rfl, ⟨n, hline, hpositive⟩, ⟨message, hmessage⟩, ⟨rule, hrule⟩, hseverity⟩
    have hn : ((n.toNat : Nat) : Int) = n := by omega
    have hline' : Members.get? t "line" = some (.int (n.toNat : Nat)) := by rw [hn, hline]
    have said : ∀ severity, ((Members.get? t "severity" = none ∧ severity = none) ∨
        (Members.get? t "severity" = some .null ∧ severity = none) ∨
        ∃ s, Members.get? t "severity" = some (.text s) ∧ severity = some s) →
        ∃ f, SaysFinding source (.record t) f := by
      intro severity h
      have hpos : 1 ≤ n.toNat := by omega
      exact ⟨⟨source, ⟨n.toNat, hpos⟩, message, rule, severity⟩, t, rfl, rfl, hline', hmessage,
        hrule, h⟩
    rcases hseverity with hnone | hnull | ⟨s, hs⟩
    · exact said none (Or.inl ⟨hnone, rfl⟩)
    · exact said none (Or.inr (Or.inl ⟨hnull, rfl⟩))
    · exact said (some s) (Or.inr (Or.inr ⟨s, hs, rfl⟩))

/-- The objects that say the findings in a file are those that the schema admits. -/
theorem exists_saysEntry_iff (v : Value) : (∃ e, SaysEntry v e) ↔ IsEntry v := by
  constructor
  · rintro ⟨e, t, rfl, hsource, ws, hws, hsays⟩
    refine ⟨t, rfl, ⟨_, hsource⟩, ws, hws, ?_⟩
    have hall := (exists_forall₂_iff (SaysFinding e.sourcePath) ws).mp ⟨_, hsays⟩
    intro w hw
    exact (exists_saysFinding_iff e.sourcePath w).mp (hall w hw)
  · rintro ⟨t, rfl, ⟨source, hsource⟩, ws, hws, hadmitted⟩
    obtain ⟨findings, hsays⟩ := (exists_forall₂_iff (SaysFinding source) ws).mpr fun w hw =>
      (exists_saysFinding_iff source w).mpr (hadmitted w hw)
    exact ⟨⟨source, findings⟩, t, rfl, hsource, ws, hws, hsays⟩

/-- The documents that are read are the reports. -/
theorem exists_ofDocument_iff {v : Value} (hdoc : Json.IsDocument v) :
    (∃ found, ofDocument v = .sound found) ↔ IsReport v := by
  have hadmitted : ∀ vs : List Value, (∃ found, List.Forall₂ SaysEntry vs found) ↔
      ∀ e ∈ vs, IsEntry e := by
    intro vs
    rw [exists_forall₂_iff]
    exact forall₂_congr fun e _ => exists_saysEntry_iff e
  constructor
  · rintro ⟨found, hfound⟩
    obtain ⟨vs, hvs, hsays⟩ := (ofDocument_iff hdoc found).mp hfound
    exact ⟨vs, hvs, (hadmitted vs).mp ⟨found, hsays⟩⟩
  · rintro ⟨vs, hvs, hall⟩
    obtain ⟨found, hsays⟩ := (hadmitted vs).mpr hall
    exact ⟨found, (ofDocument_iff hdoc found).mpr ⟨vs, hvs, hsays⟩⟩

/-- A text is a number of byte order marks and a rest that starts with none. It is accepted exactly
when the rest is a JSON text whose value is a report; the findings are then those that the objects of
the report say, one for each of them and in their order. -/
theorem ofText_accepts_schema (s : String) :
    ∃ count rest, s = marks count ++ rest ∧ rest.toList.head? ≠ some '\ufeff' ∧
      ((∃ found, ofText s = .ok found) ↔ ∃ v, Json.read? rest = some v ∧ IsReport v) ∧
      ∀ found, ofText s = .ok found →
        ∃ vs, Json.read? rest = some (.list vs) ∧ List.Forall₂ SaysEntry vs found := by
  obtain ⟨count, hs, hhead⟩ := exists_eq_marks_append s
  refine ⟨count, dropMarks s, hs, hhead, ⟨?_, ?_⟩, ?_⟩
  · rintro ⟨found, hfound⟩
    obtain ⟨vs, hread, hsays⟩ := (ofText_eq_ok_iff s found).mp hfound
    refine ⟨_, hread, vs, rfl, ?_⟩
    intro v hv
    exact (exists_saysEntry_iff v).mp
      ((exists_forall₂_iff SaysEntry vs).mp ⟨found, hsays⟩ v hv)
  · rintro ⟨v, hread, vs, rfl, hadmitted⟩
    obtain ⟨found, hsays⟩ := (exists_forall₂_iff SaysEntry vs).mpr fun v hv =>
      (exists_saysEntry_iff v).mpr (hadmitted v hv)
    exact ⟨found, (ofText_eq_ok_iff s found).mpr ⟨vs, hread, hsays⟩⟩
  · intro found hfound
    exact (ofText_eq_ok_iff s found).mp hfound

end LintGateway.Report
