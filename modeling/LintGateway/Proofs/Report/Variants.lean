import LintGateway.Proofs.Report.Schema

/-!
# Members outside of the schema

A report may be changed in every member that the schema does not speak of, and what is read of it
stays the same. `ReportVariant` relates two documents that differ in nothing but such members. A
member that goes by two names is read under the first one, so the second name belongs to the schema
only where the first is missing: there it stands in for it (`message_stands_in_for_text`).

The proof runs both readings side by side. Two readings are alike when they have one result, or when
the first faults have one complaint and one place, and each way of putting readings together keeps
them alike. The path of a file is copied onto its findings on both sides before they are read, which
covers the `source_path` that an object for a finding may hold itself; where there is no path to
copy, the first fault is that of the path, whatever the findings are.
-/

set_option autoImplicit false

namespace LintGateway

namespace Schema.Checked

variable {α β : Type}

/-- Two readings with one result, or with one complaint at one place as the first fault. -/
inductive Alike : Checked α → Checked α → Prop
  | sound (a : α) : Alike (.sound a) (.sound a)
  | faulty {f g : Fault} {fs gs : List Fault} (hlocation : f.location = g.location)
      (hcomplaint : f.complaint = g.complaint) : Alike (.faulty f fs) (.faulty g gs)

/-- What is read is like itself. -/
theorem Alike.refl (a : Checked α) : Alike a a := by
  cases a with
  | sound a => exact .sound a
  | faulty first others => exact .faulty rfl rfl

/-- Two values refused for one complaint are alike. -/
theorem alike_reject (complaint : Complaint) (v w : Value) :
    Alike (reject complaint v : Checked α) (reject complaint w) :=
  .faulty rfl rfl

/-- What is alike stays so below a step. -/
theorem Alike.under {a b : Checked α} (h : Alike a b) (step : Step) :
    Alike (a.under step) (b.under step) := by
  cases h with
  | sound a => exact .sound a
  | faulty hlocation hcomplaint => exact .faulty (congrArg (step :: ·) hlocation) hcomplaint

/-- Only when the first of two readings has a result does the second one count. -/
theorem Alike.seq {f g : Checked (α → β)} {a b : Checked α} (hfirst : Alike f g)
    (hsecond : ∀ r, f = .sound r → Alike a b) : Alike (f <*> a) (g <*> b) := by
  show Alike (combine f a) (combine g b)
  cases hfirst with
  | sound r =>
    cases hsecond r rfl with
    | sound x => exact .sound (r x)
    | faulty hlocation hcomplaint => exact .faulty hlocation hcomplaint
  | faulty hlocation hcomplaint => exact .faulty hlocation hcomplaint

/-- What is alike stays so under a function. -/
theorem Alike.map {a b : Checked α} (h : Alike a b) (r : α → β) : Alike (r <$> a) (r <$> b) :=
  (Alike.sound r).seq fun _ _ => h

/-- Items that are read alike one by one are read alike as a list. -/
theorem alike_eachFrom {read : Value → Checked α} {vs ws : List Value}
    (h : List.Forall₂ (fun v w => Alike (read v) (read w)) vs ws) (index : Nat) :
    Alike (eachFrom read index vs) (eachFrom read index ws) := by
  induction h generalizing index with
  | nil => exact .sound []
  | cons hfirst _ ih => exact ((hfirst.under _).map _).seq fun _ _ => ih (index + 1)

/-- A member that must be there is read alike when it goes by one name in both tables and its values
are read alike, or when both lack it. -/
theorem alike_required {t u : Value.Table} {names : List String} {read : Value → Checked α}
    (h : Option.Rel (fun m n => m.1 = n.1 ∧ Alike (read m.2) (read n.2)) (findMember t names)
      (findMember u names)) : Alike (required t names read) (required u names read) := by
  unfold required
  generalize findMember t names = m, findMember u names = n at h
  cases h with
  | none => exact (alike_reject _ _ _).under _
  | some h =>
    obtain ⟨hname, hread⟩ := h
    simp only [hname]
    exact hread.under _

/-- A required member found alike in two objects is read alike. -/
theorem alike_required_of_eq {t u : Value.Table} {names : List String} (read : Value → Checked α)
    (h : findMember t names = findMember u names) :
    Alike (required t names read) (required u names read) := by
  refine alike_required ?_
  rw [h]
  cases findMember u names with
  | none => exact .none
  | some m => exact .some ⟨rfl, .refl _⟩

/-- An optional member that two objects have in common is read alike. -/
theorem alike_optional_of_eq {t u : Value.Table} {name : String} (fallback : α)
    (read : Value → Checked α) (h : Members.get? t name = Members.get? u name) :
    Alike (Schema.optional t name fallback read) (Schema.optional u name fallback read) := by
  unfold Schema.optional
  rw [h]
  exact .refl _

end Schema.Checked

namespace Report

open Schema
open Schema.Checked (Alike)

/-! ## Documents that differ outside of the schema -/

/-- A member that goes by two names is kept: what the first name holds is kept, and where it holds
nothing, what the second one does. -/
def Keeps (t u : Value.Table) (name other : String) : Prop :=
  Members.get? u name = Members.get? t name ∧
    (Members.get? t name = none → Members.get? u other = Members.get? t other)

/-- Two objects for a finding that differ in other members than its line, its message, its rule and
its severity. -/
inductive FindingVariant : Value → Value → Prop
  | same (v : Value) : FindingVariant v v
  | record {t u : Value.Table} (hline : Members.get? u "line" = Members.get? t "line")
      (htext : Keeps t u "text" "message") (hrule : Keeps t u "rule" "external_rule_id")
      (hseverity : Members.get? u "severity" = Members.get? t "severity") :
      FindingVariant (.record t) (.record u)

/-- Two values for the findings in a file: the same, or arrays whose items are changed one by one. -/
inductive FindingsVariant : Value → Value → Prop
  | same (v : Value) : FindingsVariant v v
  | list {vs ws : List Value} (h : List.Forall₂ FindingVariant vs ws) :
      FindingsVariant (.list vs) (.list ws)

/-- Two objects for a file that differ in other members than its path and its findings, or within
the findings. -/
inductive EntryVariant : Value → Value → Prop
  | same (v : Value) : EntryVariant v v
  | record {t u : Value.Table} (hsource : Keeps t u "source" "source_path")
      (hwarnings : Option.Rel FindingsVariant (Members.get? t "warnings")
        (Members.get? u "warnings"))
      (hfindings : Members.get? t "warnings" = none →
        Option.Rel FindingsVariant (Members.get? t "findings") (Members.get? u "findings")) :
      EntryVariant (.record t) (.record u)

/-- Two documents that differ only in members outside of the schema of a report. -/
inductive ReportVariant : Value → Value → Prop
  | same (v : Value) : ReportVariant v v
  | list {vs ws : List Value} (h : List.Forall₂ EntryVariant vs ws) :
      ReportVariant (.list vs) (.list ws)

variable {t u : Value.Table} {v w : Value} {name other : String}

/-- Where the first name holds something, nothing is asked of the second one. -/
theorem keeps_of_some {v : Value} (h : Members.get? u name = Members.get? t name)
    (hsome : Members.get? t name = some v) : Keeps t u name other := by
  refine ⟨h, ?_⟩
  intro hnone
  cases hsome.symm.trans hnone

/-- What is kept under a name and its other name is found alike. -/
theorem Keeps.findMember_eq (h : Keeps t u name other) :
    findMember t [name, other] = findMember u [name, other] := by
  rw [findMember_pair, findMember_pair, h.1]
  cases hname : Members.get? t name with
  | some v => rfl
  | none => rw [h.2 hname]

/-- A member put under a third name in both objects leaves what they keep. -/
theorem Keeps.put (h : Keeps t u name other) (changed : String) (v : Value)
    (hname : name ≠ changed) (hother : other ≠ changed) :
    Keeps (Members.put t changed v) (Members.put u changed v) name other := by
  simp only [Keeps, Members.get?_put, if_neg hname, if_neg hother]
  exact h

/-- Where a member that goes by two names is changed within, it is found by one name before and
after. -/
theorem findMember_rel {r : Value → Value → Prop}
    (hname : Option.Rel r (Members.get? t name) (Members.get? u name))
    (hother : Members.get? t name = none →
      Option.Rel r (Members.get? t other) (Members.get? u other)) :
    Option.Rel (fun m n => m.1 = n.1 ∧ r m.2 n.2) (findMember t [name, other])
      (findMember u [name, other]) := by
  rw [findMember_pair, findMember_pair]
  generalize ht : Members.get? t name = a, Members.get? u name = b at hname
  cases hname with
  | some hr => exact .some ⟨rfl, hr⟩
  | none =>
    have hother := hother ht
    generalize Members.get? t other = a, Members.get? u other = b at hother
    cases hother with
    | some hr => exact .some ⟨rfl, hr⟩
    | none => exact .none

/-! ## Reading them side by side -/

/-- With the path of one file on them, objects for a finding that differ outside of the schema are
read alike. -/
theorem FindingVariant.alike (h : FindingVariant v w) (source : String) :
    Alike (Finding.read .document (FileFindings.stamp source v))
      (Finding.read .document (FileFindings.stamp source w)) := by
  cases h with
  | same => exact .refl _
  | @record t u hline htext hrule hseverity =>
    have hsame : ∀ name, Members.get? u name = Members.get? t name →
        findMember (Members.put t "source_path" (.text source)) [name] =
          findMember (Members.put u "source_path" (.text source)) [name] := by
      intro name hname
      rw [findMember_single, findMember_single, Members.get?_put, Members.get?_put, hname]
    have hpath : findMember (Members.put t "source_path" (.text source)) ["source_path"] =
        findMember (Members.put u "source_path" (.text source)) ["source_path"] := by
      rw [findMember_single, findMember_single, Members.get?_put, Members.get?_put, if_pos rfl,
        if_pos rfl]
    have htext := htext.put "source_path" (.text source) (by decide) (by decide)
    have hrule := hrule.put "source_path" (.text source) (by decide) (by decide)
    refine Alike.seq (Alike.seq (Alike.seq (Alike.seq (Alike.map ?_ _) ?_) ?_) ?_) ?_
    · exact Checked.alike_required_of_eq _ hpath
    · exact fun _ _ => Checked.alike_required_of_eq _ (hsame "line" hline)
    · exact fun _ _ => Checked.alike_required_of_eq _ htext.findMember_eq
    · exact fun _ _ => Checked.alike_required_of_eq _ hrule.findMember_eq
    · intro _ _
      refine Checked.alike_optional_of_eq _ _ ?_
      rw [Members.get?_put, Members.get?_put, hseverity]

/-- The findings in a file as they are read: with its path copied onto them. -/
def readFindings (t : Value.Table) : Checked (List Finding) :=
  required (FileFindings.shareSource t) FileFindings.findingsNames
    (readSequence .document (Finding.read .document))

/-- Findings listed in variants of each other are read alike. -/
theorem alike_readFindings_of_lists {vs ws : List Value} {source n : String}
    (hsource : findMember t FileFindings.sourceNames = some (name, .text source))
    (hsource' : findMember u FileFindings.sourceNames = some (name, .text source))
    (ht : findMember t FileFindings.findingsNames = some (n, .list vs))
    (hu : findMember u FileFindings.findingsNames = some (n, .list ws))
    (h : List.Forall₂ FindingVariant vs ws) : Alike (readFindings t) (readFindings u) := by
  refine Checked.alike_required ?_
  rw [findMember_shareSource_of_list hsource ht, findMember_shareSource_of_list hsource' hu]
  refine .some ⟨rfl, Checked.alike_eachFrom ?_ 0⟩
  rw [List.forall₂_map_left_iff, List.forall₂_map_right_iff]
  exact h.imp fun _ _ hitem => hitem.alike source

/-- Findings that are no list in either object are read alike. -/
theorem alike_readFindings_of_not_list
    (h : findMember t FileFindings.findingsNames = findMember u FileFindings.findingsNames)
    (hnot : ∀ n ws, findMember t FileFindings.findingsNames ≠ some (n, .list ws)) :
    Alike (readFindings t) (readFindings u) := by
  unfold readFindings
  rw [shareSource_of_not_list hnot, shareSource_of_not_list (h ▸ hnot)]
  exact Checked.alike_required_of_eq _ h

/-- The findings in a file whose path is a text are read alike. -/
theorem alike_readFindings {source : String}
    (hsource : findMember t FileFindings.sourceNames = some (name, .text source))
    (hsource' : findMember u FileFindings.sourceNames = some (name, .text source))
    (h : Option.Rel (fun m n => m.1 = n.1 ∧ FindingsVariant m.2 n.2)
      (findMember t FileFindings.findingsNames) (findMember u FileFindings.findingsNames)) :
    Alike (readFindings t) (readFindings u) := by
  generalize ht : findMember t FileFindings.findingsNames = m,
    hu : findMember u FileFindings.findingsNames = n at h
  cases h with
  | none => exact alike_readFindings_of_not_list (ht.trans hu.symm) (by simp [ht])
  | @some m m' h =>
    obtain ⟨n, v⟩ := m
    obtain ⟨n', w⟩ := m'
    obtain ⟨rfl, hvariant⟩ : n = n' ∧ FindingsVariant v w := h
    cases hvariant with
    | list hitems => exact alike_readFindings_of_lists hsource hsource' ht hu hitems
    | same =>
      by_cases hlist : ∃ vs, v = .list vs
      · obtain ⟨vs, rfl⟩ := hlist
        exact alike_readFindings_of_lists hsource hsource' ht hu
          (List.forall₂_same.mpr fun v _ => .same v)
      · refine alike_readFindings_of_not_list (ht.trans hu.symm) ?_
        rw [ht]
        rintro _ vs heq
        exact hlist ⟨vs, (Prod.mk.inj (Option.some.inj heq)).2⟩

/-- Objects for a file that differ outside of the schema are read alike. -/
theorem EntryVariant.alike (h : EntryVariant v w) :
    Alike (FileFindings.read .document v) (FileFindings.read .document w) := by
  cases h with
  | same => exact .refl _
  | @record t u hsource hwarnings hfindings =>
    have hsame : findMember t FileFindings.sourceNames = findMember u FileFindings.sourceNames :=
      hsource.findMember_eq
    refine Alike.seq (Alike.map ?_ _) ?_
    · refine Checked.alike_required_of_eq _ ?_
      rw [findMember_shareSource, findMember_shareSource, hsame]
    · -- a path was read, so it is a text that has been copied
      intro r hr
      obtain ⟨source, hpath, -⟩ := (Checked.map_eq_sound_iff _ _ _).mp hr
      obtain ⟨name, v, hfound, hv⟩ := (required_eq_sound_iff _ _ _ _).mp hpath
      rw [readText_eq_sound_iff] at hv
      rw [findMember_shareSource, hv] at hfound
      exact alike_readFindings hfound (hsame ▸ hfound) (findMember_rel hwarnings hfindings)

/-- A report and a variant of it are read alike. -/
theorem ReportVariant.alike (h : ReportVariant v w) : Alike (ofDocument v) (ofDocument w) := by
  cases h with
  | same => exact .refl _
  | list hentries => exact Checked.alike_eachFrom (hentries.imp fun _ _ h => h.alike) 0

/-! ## Texts of reports -/

/-- Two outcomes with the same findings, or with errors of one reason and one place. -/
inductive SameOutcome : Except FormatError (List FileFindings) →
    Except FormatError (List FileFindings) → Prop
  | ok (found : List FileFindings) : SameOutcome (.ok found) (.ok found)
  | error {e e' : FormatError} (hreason : e.reason = e'.reason)
      (hlocation : e.location = e'.location) : SameOutcome (.error e) (.error e')

/-- A text that is a JSON text is not blank, so the outcome is that of its document. -/
theorem ofText_of_read {s : String} (hread : Json.read? (dropMarks s) = some v) :
    ofText s =
      match ofDocument v with
      | .sound found => .ok found
      | .faulty first _ => .error (.ofFault first) := by
  have hblank : ¬ Text.isBlankText s = true := by
    intro hblank
    rw [Json.read?_eq_none_of_blank (isBlankText_dropMarks hblank)] at hread
    cases hread
  unfold ofText
  cases hresult : ofDocument v <;> simp only [if_neg hblank, hread, hresult]

/-- Two JSON texts whose documents differ only in members outside of the schema have the same
outcome: the same findings, or an error with the same reason at the same place. -/
theorem ofText_ignores_strangers {s s' : String}
    (hread : Json.read? (dropMarks s) = some v) (hread' : Json.read? (dropMarks s') = some w)
    (h : ReportVariant v w) : SameOutcome (ofText s) (ofText s') := by
  rw [ofText_of_read hread, ofText_of_read hread']
  have halike := h.alike
  generalize ofDocument v = a, ofDocument w = b at halike
  cases halike with
  | sound found => exact .ok found
  | @faulty f g fs gs hlocation hcomplaint =>
    exact .error (congrArg Complaint.message hcomplaint) (congrArg locationText hlocation)

/-- A report with a finding that has no members. -/
def plainReport : String := "[\x7b\"source\":\"a\",\"warnings\":[\x7b\x7d]\x7d]"

/-- The same report with another member in each of its objects. -/
def crowdedReport : String :=
  "[\x7b\"id\":0,\"source\":\"a\",\"warnings\":[\x7b\"column\":0\x7d]\x7d]"

/-- Both end in the error that the finding has no line. -/
theorem ofText_ignores_strangers_crowdedReport :
    SameOutcome (ofText plainReport) (ofText crowdedReport) ∧
      ofText plainReport =
        .error ⟨"Field required", "[0].warnings[0].line", "\x7b'source_path': 'a'\x7d"⟩ := by
  have hplain : Json.read? (dropMarks plainReport) =
      some (.list [.record [("source", .text "a"), ("warnings", .list [.record []])]]) := rfl
  have hcrowded : Json.read? (dropMarks crowdedReport) =
      some (.list [.record [("id", .int 0), ("source", .text "a"),
        ("warnings", .list [.record [("column", .int 0)]])]]) := rfl
  refine ⟨ofText_ignores_strangers hplain hcrowded (.list (.cons ?_ .nil)), ?_⟩
  · refine .record (keeps_of_some rfl rfl) (.some (.list (.cons ?_ .nil))) ?_
    · exact .record rfl ⟨rfl, fun _ => rfl⟩ ⟨rfl, fun _ => rfl⟩ rfl
    · exact fun hnone => (Option.some_ne_none _ hnone).elim
  · rw [ofText_of_read hplain]
    rfl

/-- A finding without its message. -/
def silentFinding : Value.Table := [("line", .int 1), ("rule", .text "r")]

/-- The same finding with a message under the second name. -/
def messageFinding : Value.Table := silentFinding ++ [("message", .text "m")]

/-- A report with the finding that has no message. -/
def silentReport : String :=
  "[\x7b\"source\":\"a.css\",\"warnings\":[\x7b\"line\":1,\"rule\":\"r\"\x7d]\x7d]"

/-- A report with the finding that has its message under the second name. -/
def messageReport : String :=
  "[\x7b\"source\":\"a.css\",\"warnings\":[\x7b\"line\":1,\"rule\":\"r\",\"message\":\"m\"\x7d]\x7d]"

/-- Two reports differ in one member `message` of a finding without `text`, and agree in `source` and
`warnings` of the file and in `line`, `text`, `rule` and `severity` of the finding. One is refused
for the missing text, and the other is read. -/
theorem message_stands_in_for_text :
    Json.read? (dropMarks silentReport) = some (.list [.record
        [("source", .text "a.css"), ("warnings", .list [.record silentFinding])]]) ∧
      Json.read? (dropMarks messageReport) = some (.list [.record
        [("source", .text "a.css"), ("warnings", .list [.record messageFinding])]]) ∧
      (∀ name ∈ ["line", "text", "rule", "severity"],
        Members.get? messageFinding name = Members.get? silentFinding name) ∧
      ofText silentReport = .error ⟨"Field required", "[0].warnings[0].text",
        "\x7b'line': 1, 'rule': 'r', 'source_path': 'a.css'\x7d"⟩ ∧
      ofText messageReport =
        .ok [⟨"a.css", [⟨"a.css", ⟨1, by decide⟩, "m", "r", none⟩]⟩] := by
  have hsilent : Json.read? (dropMarks silentReport) = some (.list [.record
      [("source", .text "a.css"), ("warnings", .list [.record silentFinding])]]) := rfl
  have hmessage : Json.read? (dropMarks messageReport) = some (.list [.record
      [("source", .text "a.css"), ("warnings", .list [.record messageFinding])]]) := rfl
  refine ⟨hsilent, hmessage, ?_, ?_, ?_⟩
  · intro name hname
    simp only [List.mem_cons, List.not_mem_nil, or_false] at hname
    rcases hname with rfl | rfl | rfl | rfl <;> rfl
  · rw [ofText_of_read hsilent]
    rfl
  · rw [ofText_of_read hmessage]
    rfl

end Report

end LintGateway
