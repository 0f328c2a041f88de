import LintGateway.Proofs.Json.Scalars
import LintGateway.Proofs.Report.Variants

/-!
# The first fault of a report

A text that is a JSON text but no report is refused for the first thing in it that does not fit the
schema. `FirstFault` says which one that is: the objects for files are gone through in order, in each
of them its path and then its findings, and in a finding its line, its message, its rule and its
severity; all that comes before fits. The error tells the place, and the text of the place leads
there from the top of the document (`follow`): it can be read back (`readLocation_locationText`), so
no two places are written alike.

A reading keeps all its faults; of the first one it is enough to know how each way of putting
readings together passes it on (`firstFault?_seq`, `firstFault?_eachFrom`). Findings are read with the
path of their file copied onto them, which is seen in the value that the error shows and never in
its place, since the copy can always be read.
-/

set_option autoImplicit false

namespace LintGateway

namespace Schema

/-- A fault of a part, as a fault of the whole. -/
def Fault.within (step : Step) (f : Fault) : Fault := { f with location := step :: f.location }

namespace Checked

variable {α β : Type}

/-- The first fault of a reading, if it has any. -/
def firstFault? : Checked α → Option Fault
  | sound _ => none
  | faulty first _ => some first

/-- A value that was checked has no fault exactly when it is sound. -/
theorem firstFault?_eq_none_iff (a : Checked α) : a.firstFault? = none ↔ ∃ x, a = sound x := by
  cases a <;> simp [firstFault?]

/-- What is made of a sound value leaves the first fault what it is. -/
@[simp] theorem firstFault?_map (r : α → β) (a : Checked α) :
    (r <$> a).firstFault? = a.firstFault? := by
  cases a <;> rfl

/-- Of two values checked one after the other the faults of the first come first. -/
@[simp] theorem firstFault?_seq (f : Checked (α → β)) (a : Checked α) :
    (f <*> a).firstFault? = f.firstFault?.or a.firstFault? := by
  cases f <;> cases a <;> rfl

/-- A fault found below a step is located behind that step. -/
@[simp] theorem firstFault?_under (step : Step) (a : Checked α) :
    (a.under step).firstFault? = a.firstFault?.map (Fault.within step) := by
  cases a <;> rfl

/-- A refused value has one fault, with nothing before it in its location. -/
@[simp] theorem firstFault?_reject (complaint : Complaint) (v : Value) :
    (reject complaint v : Checked α).firstFault? = some ⟨[], complaint, v⟩ := rfl

/-- The first fault of a sequence is that of its first item that has one. -/
theorem firstFault?_eachFrom {read : Value → Checked α} {index : Nat} {vs : List Value}
    {f : Fault} (h : (eachFrom read index vs).firstFault? = some f) :
    ∃ before v after g, vs = before ++ v :: after ∧ (∀ w ∈ before, ∃ a, read w = sound a) ∧
      (read v).firstFault? = some g ∧
        f = g.within (.item ((index + before.length : Nat) : Int)) := by
  induction vs generalizing index with
  | nil => cases h
  | cons v vs ih =>
    rw [eachFrom, firstFault?_seq, firstFault?_map, firstFault?_under] at h
    cases hv : (read v).firstFault? with
    | some g =>
      rw [hv] at h
      exact ⟨[], v, vs, g, rfl, by simp, hv, (Option.some.inj h).symm⟩
    | none =>
      rw [hv] at h
      obtain ⟨before, w, after, g, rfl, hbefore, hg, rfl⟩ := ih h
      refine ⟨v :: before, w, after, g, rfl, ?_, hg, ?_⟩
      · exact List.forall_mem_cons.mpr ⟨(firstFault?_eq_none_iff _).mp hv, hbefore⟩
      · rw [List.length_cons, Nat.add_right_comm, Nat.add_assoc]

end Checked

end Schema

namespace Report

open Schema

/-! ## What is wrong with a member -/

/-- What is wrong with a value that has to be a text. -/
def textComplaint? : Value → Option Complaint
  | .text _ => none
  | _ => some .notText

/-- What is wrong with a value that has to be a line number. -/
def lineComplaint? : Value → Option Complaint
  | .int n => if n < 1 then some (.below 1) else none
  | _ => some .notInt

/-- What is wrong with a value that has to be a text or nothing. -/
def severityComplaint? : Value → Option Complaint
  | .null => none
  | v => textComplaint? v

/-- What is wrong with a value that has to be an array. -/
def arrayComplaint? : Value → Option Complaint
  | .list _ => none
  | _ => some (.notSequence .document)

/-- What is wrong with a member that has to be there. -/
def neededComplaint? (complaint? : Value → Option Complaint) : Option Value → Option Complaint
  | none => some .missing
  | some v => complaint? v

/-- The members of an object for a finding. -/
inductive FindingMember where
  | line
  | text
  | rule
  | severity
deriving DecidableEq

/-- The members of an object for a file. -/
inductive EntryMember where
  | source
  | warnings
deriving DecidableEq

namespace FindingMember

/-- The name of a member in a report. -/
def name : FindingMember → String
  | line => "line"
  | text => "text"
  | rule => "rule"
  | severity => "severity"

/-- The members in the order in which they are looked at. -/
def all : List FindingMember := [line, text, rule, severity]

/-- What is wrong with a member. -/
def complaint? : FindingMember → Option Value → Option Complaint
  | line => neededComplaint? lineComplaint?
  | text => neededComplaint? textComplaint?
  | rule => neededComplaint? textComplaint?
  | severity => fun v => v.bind severityComplaint?

end FindingMember

namespace EntryMember

/-- The name of a member in a report. -/
def name : EntryMember → String
  | source => "source"
  | warnings => "warnings"

/-- What is wrong with a member. -/
def complaint? : EntryMember → Option Value → Option Complaint
  | source => neededComplaint? textComplaint?
  | warnings => neededComplaint? arrayComplaint?

end EntryMember

/-! ## The first fault -/

/-- The first fault of an object for a finding in a file: it is no object, or one of its members does
not fit and those looked at before do. Of a member that is missing the object is shown, with the path
of the file. -/
inductive FindingFault (source : String) : Value → Fault → Prop
  | notObject {v : Value} (h : ∀ t, v ≠ .record t) :
      FindingFault source v ⟨[], .notRecord .document "RawFinding", v⟩
  | member {t : Value.Table} {before after : List FindingMember} {m : FindingMember}
      {complaint : Complaint} (hall : FindingMember.all = before ++ m :: after)
      (hbefore : ∀ b ∈ before, b.complaint? (Members.get? t b.name) = none)
      (hm : m.complaint? (Members.get? t m.name) = some complaint) :
      FindingFault source (.record t) ⟨[.member m.name], complaint,
        (Members.get? t m.name).getD (FileFindings.stamp source (.record t))⟩

/-- The first fault of an object for a file: it is no object, its path does not fit, its findings are
no array, or one of them has a fault and those before it have none. -/
inductive EntryFault : Value → Fault → Prop
  | notObject {v : Value} (h : ∀ t, v ≠ .record t) :
      EntryFault v ⟨[], .notRecord .document "PerFileFindings", v⟩
  | source {t : Value.Table} {complaint : Complaint}
      (h : EntryMember.source.complaint? (Members.get? t "source") = some complaint) :
      EntryFault (.record t)
        ⟨[.member "source"], complaint, (Members.get? t "source").getD (.record t)⟩
  | warnings {t : Value.Table} {source : String} {complaint : Complaint}
      (hsource : Members.get? t "source" = some (.text source))
      (h : EntryMember.warnings.complaint? (Members.get? t "warnings") = some complaint) :
      EntryFault (.record t)
        ⟨[.member "warnings"], complaint, (Members.get? t "warnings").getD (.record t)⟩
  | finding {t : Value.Table} {source : String} {before after : List Value} {w : Value} {f : Fault}
      (hsource : Members.get? t "source" = some (.text source))
      (hwarnings : Members.get? t "warnings" = some (.list (before ++ w :: after)))
      (hbefore : ∀ b ∈ before, IsFinding b) (hw : FindingFault source w f) :
      EntryFault (.record t)
        ((f.within (.item before.length)).within (.member "warnings"))

/-- The first fault of a report: it is no array, or one of its objects has a fault and those before
it have none. -/
inductive FirstFault : Value → Fault → Prop
  | notArray {v : Value} (h : ∀ vs, v ≠ .list vs) : FirstFault v ⟨[], .notSequence .document, v⟩
  | entry {before after : List Value} {e : Value} {f : Fault} (hbefore : ∀ b ∈ before, IsEntry b)
      (he : EntryFault e f) :
      FirstFault (.list (before ++ e :: after)) (f.within (.item before.length))

/-! ## Reports in the names of the linter -/

/-- A member that goes by two names is not given under the second one alone. -/
def NamesOwn (t : Value.Table) (own other : String) : Prop :=
  Members.get? t own = none → Members.get? t other = none

/-- An object for a finding uses the names of the linter. -/
def FindingNamesOwn (v : Value) : Prop :=
  ∀ t, v = .record t → NamesOwn t "text" "message" ∧ NamesOwn t "rule" "external_rule_id"

/-- An object for a file and its findings use the names of the linter. -/
def EntryNamesOwn (v : Value) : Prop :=
  ∀ t, v = .record t → NamesOwn t "source" "source_path" ∧ NamesOwn t "warnings" "findings" ∧
    ∀ ws, Members.get? t "warnings" = some (.list ws) → ∀ w ∈ ws, FindingNamesOwn w

/-- The objects of a report use the names of the linter. -/
def NamesOwnMembers (v : Value) : Prop := ∀ vs, v = .list vs → ∀ e ∈ vs, EntryNamesOwn e

variable {t : Value.Table} {own other : String}

/-- A name that is given names its own value, whatever stands under the other name. -/
theorem namesOwn_of_some {v : Value} (h : Members.get? t own = some v) : NamesOwn t own other := by
  intro hnone
  cases h.symm.trans hnone

/-- Of its two names a value is found under its own, if it is found at all. -/
theorem NamesOwn.findMember_eq (h : NamesOwn t own other) :
    findMember t [own, other] = (Members.get? t own).map fun v => (own, v) := by
  rw [findMember_pair]
  cases hown : Members.get? t own with
  | some v => rfl
  | none =>
    rw [h hown]
    rfl

/-! ## The first fault of a reading -/

/-- The first fault of the reading of a value is a complaint about the value itself. -/
def Complains {α : Type} (read : Value → Checked α) (complaint? : Value → Option Complaint)
    (v : Value) : Prop :=
  (read v).firstFault? = (complaint? v).map fun c => ⟨[], c, v⟩

/-- The reading of a text complains of everything but a text. -/
theorem complains_readText (v : Value) : Complains readText textComplaint? v := by
  cases v <;> rfl

/-- The reading of a line number complains of all but the integers that are not negative. -/
theorem complains_readLineNumber (v : Value) :
    Complains (readLineNumber readStrictInt) lineComplaint? v := by
  unfold Complains
  cases v with
  | int n =>
    by_cases hn : n < 1 <;>
      simp [readLineNumber, readStrictInt, Checked.andThen, lineComplaint?, hn, Checked.firstFault?,
        Checked.reject]
  | _ => rfl

/-- The reading of a severity complains of all but null and a text. -/
theorem complains_readOptional (v : Value) :
    Complains (readOptional readText) severityComplaint? v := by
  cases v <;> rfl

/-- What a document has in the place of an array is at fault itself. -/
theorem complains_readSequence {α : Type} {read : Value → Checked α} {v : Value}
    (hdoc : Json.IsDocument v) (h : ∀ vs, v ≠ .list vs) :
    Complains (readSequence .document read) arrayComplaint? v := by
  cases v with
  | list vs => exact absurd rfl (h vs)
  | tuple vs => exact absurd hdoc Json.IsDocument.not_tuple
  | _ => rfl

variable {α : Type} {read : Value → Checked α} {complaint? : Value → Option Complaint}

/-- A member that must be there is at fault when it is missing, or when its value is. -/
theorem firstFault?_required
    (hread : ∀ v, Members.get? t own = some v → Complains read complaint? v)
    {names : List String} (hnames : names.head? = some own)
    (hfound : findMember t names = (Members.get? t own).map fun v => (own, v)) :
    (required t names read).firstFault? =
      (neededComplaint? complaint? (Members.get? t own)).map fun c =>
        ⟨[.member own], c, (Members.get? t own).getD (.record t)⟩ := by
  unfold required
  rw [hfound]
  cases hown : Members.get? t own with
  | none => simp [neededComplaint?, hnames, Fault.within]
  | some v =>
    have hv : (read v).firstFault? = _ := hread v hown
    simp only [Option.map_some, Checked.firstFault?_under, hv, Option.map_map]
    rfl

/-- The first fault of an optional member is that of its value. -/
theorem firstFault?_optional (hread : ∀ v, Complains read complaint? v) (fallback : α) :
    (Schema.optional t own fallback read).firstFault? =
      ((Members.get? t own).bind complaint?).map fun c =>
        ⟨[.member own], c, (Members.get? t own).getD (.record t)⟩ := by
  unfold Schema.optional
  cases Members.get? t own with
  | none => rfl
  | some v =>
    have hv : (read v).firstFault? = _ := hread v
    simp only [Checked.firstFault?_under, hv, Option.map_map]
    rfl

/-- The first fault of an object for a finding is that of its first member that has one. -/
theorem firstFault?_finding (hnames : FindingNamesOwn (.record t)) (source : String) :
    (Finding.read .document (FileFindings.stamp source (.record t))).firstFault? =
      FindingMember.all.findSome? fun m =>
        (m.complaint? (Members.get? t m.name)).map fun c => ⟨[.member m.name], c,
          (Members.get? t m.name).getD (FileFindings.stamp source (.record t))⟩ := by
  obtain ⟨htext, hrule⟩ := hnames t rfl
  have hget : ∀ name, name ≠ "source_path" →
      Members.get? (Members.put t "source_path" (.text source)) name = Members.get? t name := by
    intro name hname
    rw [Members.get?_put, if_neg hname]
  have hown : ∀ own other, NamesOwn t own other → own ≠ "source_path" → other ≠ "source_path" →
      NamesOwn (Members.put t "source_path" (.text source)) own other := by
    intro own other h hne hne'
    rw [NamesOwn, hget own hne, hget other hne']
    exact h
  -- the member that the file entry hands on is a text, so it is never at fault
  have hpath : (required (Members.put t "source_path" (.text source)) ["source_path"]
      readText).firstFault? = none := by
    rw [firstFault?_required (fun v _ => complains_readText v) rfl (findMember_single _ _),
      Members.get?_put, if_pos rfl]
    rfl
  show (Finding.read .document
    (.record (Members.put t "source_path" (.text source)))).firstFault? = _
  simp only [Finding.read, readRecord, Checked.firstFault?_seq, Checked.firstFault?_map, hpath,
    firstFault?_required (fun v _ => complains_readLineNumber v) rfl (findMember_single _ "line"),
    firstFault?_required (fun v _ => complains_readText v) rfl
      (hown "text" "message" htext (by decide) (by decide)).findMember_eq,
    firstFault?_required (fun v _ => complains_readText v) rfl
      (hown "rule" "external_rule_id" hrule (by decide) (by decide)).findMember_eq,
    firstFault?_optional complains_readOptional, hget "line" (by decide), hget "text" (by decide),
    hget "rule" (by decide), hget "severity" (by decide), Option.none_or]
  have hcons : ∀ (found : FindingMember → Option Fault) (m : FindingMember)
      (ms : List FindingMember), (m :: ms).findSome? found = (found m).or (ms.findSome? found) := by
    intro found m ms
    rw [List.findSome?_cons]
    cases found m <;> rfl
  simp only [FindingMember.all, hcons, List.findSome?_nil, Option.or_none, Option.or_assoc]
  rfl

/-- What is no object is at fault itself. -/
theorem firstFault?_readRecord_of_ne {name : String} {read : Value.Table → Checked α} {v : Value}
    (h : ∀ t, v ≠ .record t) :
    (readRecord .document name read v).firstFault? =
      some ⟨[], .notRecord .document name, v⟩ := by
  cases v with
  | record t => exact absurd rfl (h t)
  | _ => rfl

/-- The first fault of a finding is one of the five that a finding has. -/
theorem findingFault_of_firstFault? {source : String} {v : Value} {f : Fault}
    (hnames : FindingNamesOwn v)
    (h : (Finding.read .document (FileFindings.stamp source v)).firstFault? = some f) :
    FindingFault source v f := by
  by_cases hrecord : ∃ t, v = .record t
  · obtain ⟨t, rfl⟩ := hrecord
    rw [firstFault?_finding hnames, List.findSome?_eq_some_iff] at h
    obtain ⟨before, m, after, hall, hm, hbefore⟩ := h
    obtain ⟨complaint, hcomplaint, rfl⟩ := Option.map_eq_some_iff.mp hm
    exact .member hall (fun b hb => Option.map_eq_none_iff.mp (hbefore b hb)) hcomplaint
  · have hne : ∀ t, v ≠ .record t := fun t heq => hrecord ⟨t, heq⟩
    have hstamp : FileFindings.stamp source v = v := by
      cases v with
      | record t => exact absurd rfl (hne t)
      | _ => rfl
    rw [hstamp, Finding.read, firstFault?_readRecord_of_ne hne] at h
    obtain rfl := Option.some.inj h
    exact .notObject hne

/-- The first fault of the findings in a file whose path is a text. -/
theorem entryFault_of_readFindings {source : String} {f : Fault}
    (hdoc : Json.IsDocument (.record t)) (hnames : EntryNamesOwn (.record t))
    (hsource : Members.get? t "source" = some (.text source))
    (h : (readFindings t).firstFault? = some f) : EntryFault (.record t) f := by
  obtain ⟨hown, hownWarnings, hitems⟩ := hnames t rfl
  have hpath : findMember t FileFindings.sourceNames = some ("source", .text source) := by
    rw [FileFindings.sourceNames, hown.findMember_eq, hsource]
    rfl
  have hfound : findMember t FileFindings.findingsNames =
      (Members.get? t "warnings").map fun v => ("warnings", v) := hownWarnings.findMember_eq
  by_cases hlist : ∃ ws, Members.get? t "warnings" = some (.list ws)
  · obtain ⟨ws, hws⟩ := hlist
    rw [hws, Option.map_some] at hfound
    unfold readFindings required at h
    rw [findMember_shareSource_of_list hpath hfound] at h
    simp only [Checked.firstFault?_under, Option.map_eq_some_iff] at h
    obtain ⟨g, hg, rfl⟩ := h
    obtain ⟨before, w, after, g, hsplit, hbefore, hw, rfl⟩ := Checked.firstFault?_eachFrom hg
    -- the objects that are read are those of the document with the path on them
    obtain ⟨first, others, rfl, rfl, hothers⟩ := List.map_eq_append_iff.mp hsplit
    obtain ⟨v, rest, rfl, rfl, -⟩ := List.map_eq_cons_iff.mp hothers
    rw [List.length_map, Nat.zero_add]
    refine .finding hsource hws ?_ (findingFault_of_firstFault? ?_ hw)
    · intro b hb
      obtain ⟨a, ha⟩ := hbefore _ (List.mem_map.mpr ⟨b, hb, rfl⟩)
      exact (exists_saysFinding_iff source b).mp ⟨a, (read_stamped_iff source b a).mp ha⟩
    · exact hitems _ hws v (List.mem_append_right first List.mem_cons_self)
  · have hnot : ∀ n ws, findMember t FileFindings.findingsNames ≠ some (n, .list ws) := by
      intro n ws heq
      rw [hfound] at heq
      obtain ⟨v, hv, hpair⟩ := Option.map_eq_some_iff.mp heq
      obtain ⟨-, rfl⟩ := Prod.mk.inj hpair
      exact hlist ⟨ws, hv⟩
    have hcomplains : ∀ v, Members.get? t "warnings" = some v →
        Complains (readSequence .document (Finding.read .document)) arrayComplaint? v := by
      intro v hv
      exact complains_readSequence (hdoc.of_get? hv) fun vs heq => hlist ⟨vs, heq ▸ hv⟩
    rw [readFindings, shareSource_of_not_list hnot, firstFault?_required hcomplains rfl hfound,
      Option.map_eq_some_iff] at h
    obtain ⟨complaint, hcomplaint, rfl⟩ := h
    exact .warnings hsource hcomplaint

/-- A text that is needed and not complained of is there. -/
theorem neededComplaint?_text_eq_none {v : Option Value}
    (h : neededComplaint? textComplaint? v = none) : ∃ s, v = some (.text s) := by
  cases v with
  | none => cases h
  | some v =>
    cases v with
    | text s => exact ⟨s, rfl⟩
    | _ => cases h

/-- Where the path does not fit, it is not copied. -/
theorem shareSource_of_complaint {complaint : Complaint} (hown : NamesOwn t "source" "source_path")
    (h : EntryMember.source.complaint? (Members.get? t "source") = some complaint) :
    FileFindings.shareSource t = t := by
  have hfound : findMember t FileFindings.sourceNames =
      (Members.get? t "source").map fun v => ("source", v) := hown.findMember_eq
  unfold FileFindings.shareSource
  split
  · rename_i hsource _
    rw [hfound] at hsource
    obtain ⟨v, hv, hpair⟩ := Option.map_eq_some_iff.mp hsource
    obtain ⟨-, rfl⟩ := Prod.mk.inj hpair
    rw [hv] at h
    cases h
  · rfl

/-- The first fault of a file entry is one of those that a file entry has. -/
theorem entryFault_of_firstFault? {v : Value} {f : Fault} (hdoc : Json.IsDocument v)
    (hnames : EntryNamesOwn v) (h : (FileFindings.read .document v).firstFault? = some f) :
    EntryFault v f := by
  by_cases hrecord : ∃ t, v = .record t
  · obtain ⟨t, rfl⟩ := hrecord
    have hown := (hnames t rfl).1
    have hparts : (required (FileFindings.shareSource t) FileFindings.sourceNames
        readText).firstFault?.or (readFindings t).firstFault? = some f := by
      rw [← h, FileFindings.read]
      simp only [readRecord, Checked.firstFault?_seq, Checked.firstFault?_map]
      rfl
    cases hsource : EntryMember.source.complaint? (Members.get? t "source") with
    | some complaint =>
      rw [shareSource_of_complaint hown hsource, FileFindings.sourceNames,
        firstFault?_required (fun v _ => complains_readText v) rfl hown.findMember_eq] at hparts
      rw [EntryMember.complaint?] at hsource
      rw [hsource] at hparts
      obtain rfl := Option.some.inj hparts
      exact .source hsource
    | none =>
      obtain ⟨source, htext⟩ := neededComplaint?_text_eq_none hsource
      have hnone : (required (FileFindings.shareSource t) FileFindings.sourceNames
          readText).firstFault? = none := by
        rw [Checked.firstFault?_eq_none_iff]
        refine ⟨source, (required_eq_sound_iff _ _ _ _).mpr ⟨"source", .text source, ?_, rfl⟩⟩
        rw [findMember_shareSource, FileFindings.sourceNames, hown.findMember_eq, htext]
        rfl
      rw [hnone, Option.none_or] at hparts
      exact entryFault_of_readFindings hdoc hnames htext hparts
  · have hne : ∀ t, v ≠ .record t := fun t heq => hrecord ⟨t, heq⟩
    rw [FileFindings.read, firstFault?_readRecord_of_ne hne] at h
    obtain rfl := Option.some.inj h
    exact .notObject hne

/-- The first fault of the reading of a document is the first fault of the report. -/
theorem firstFault_of_firstFault? {v : Value} {f : Fault} (hdoc : Json.IsDocument v)
    (hnames : NamesOwnMembers v) (h : (ofDocument v).firstFault? = some f) : FirstFault v f := by
  by_cases hlist : ∃ vs, v = .list vs
  · obtain ⟨vs, rfl⟩ := hlist
    have hitems := hdoc.of_list
    obtain ⟨before, e, after, g, rfl, hbefore, he, rfl⟩ := Checked.firstFault?_eachFrom h
    rw [Nat.zero_add]
    refine .entry ?_ (entryFault_of_firstFault? (hitems e (by simp)) (hnames _ rfl e (by simp)) he)
    intro b hb
    obtain ⟨a, ha⟩ := hbefore b hb
    have hb' := hitems b (List.mem_append_left _ hb)
    exact (exists_saysEntry_iff b).mp ⟨a, (read_entry_iff hb' a).mp ha⟩
  · have hne : ∀ vs, v ≠ .list vs := fun vs heq => hlist ⟨vs, heq⟩
    have hcomplains : (ofDocument v).firstFault? = _ := complains_readSequence hdoc hne
    rw [hcomplains] at h
    obtain ⟨complaint, hcomplaint, rfl⟩ := Option.map_eq_some_iff.mp h
    obtain rfl : Complaint.notSequence .document = complaint := by
      cases v with
      | list vs => exact absurd rfl (hne vs)
      | _ => exact Option.some.inj hcomplaint
    exact .notArray hne

/-! ## The place of a fault -/

/-- The places in a report at which the schema can be violated, by the positions of the object for
the file and of the object for the finding. -/
inductive Place where
  | top
  | entry (i : Nat)
  | entryMember (i : Nat) (m : EntryMember)
  | finding (i j : Nat)
  | findingMember (i j : Nat) (m : FindingMember)
deriving DecidableEq

/-- The way to a place from the top of the document. -/
def Place.location : Place → Location
  | top => []
  | entry i => [.item i]
  | entryMember i m => [.item i, .member m.name]
  | finding i j => [.item i, .member "warnings", .item j]
  | findingMember i j m => [.item i, .member "warnings", .item j, .member m.name]

/-- The text of a place, as an error tells it. -/
def Place.text (p : Place) : String := locationText p.location

/-- A first fault stands at one of the places of a report. -/
theorem FirstFault.exists_place {v : Value} {f : Fault} (h : FirstFault v f) :
    ∃ p : Place, f.location = p.location := by
  cases h with
  | notArray => exact ⟨.top, rfl⟩
  | @entry before _ _ _ _ he =>
    cases he with
    | notObject => exact ⟨.entry before.length, rfl⟩
    | source => exact ⟨.entryMember before.length .source, rfl⟩
    | warnings => exact ⟨.entryMember before.length .warnings, rfl⟩
    | @finding _ _ inner _ _ _ _ _ _ hw =>
      cases hw with
      | notObject => exact ⟨.finding before.length inner.length, rfl⟩
      | @member _ _ _ m => exact ⟨.findingMember before.length inner.length m, rfl⟩

/-- What a way leads to from a value; where the member named last is missing, the object that lacks
it. -/
def reach : Value → Location → Option Value
  | v, [] => some v
  | .list vs, .item (.ofNat i) :: rest => vs[i]?.bind fun v => reach v rest
  | .record t, [.member name] => some ((Members.get? t name).getD (.record t))
  | .record t, .member name :: rest => (Members.get? t name).bind fun v => reach v rest
  | _, _ => none

/-- Without steps the value itself is reached. -/
@[simp] theorem reach_nil (v : Value) : reach v [] = some v := by
  cases v <;> rfl

/-- The fault of a finding is in a value that is reached from it, stamped with its file or not. -/
theorem FindingFault.exists_reach {source : String} {v : Value} {f : Fault}
    (h : FindingFault source v f) :
    ∃ reached, reach v f.location = some reached ∧
      (f.found = reached ∨ f.found = FileFindings.stamp source reached) := by
  cases h with
  | notObject => exact ⟨v, reach_nil v, Or.inl rfl⟩
  | @member t _ _ m =>
    refine ⟨(Members.get? t m.name).getD (.record t), rfl, ?_⟩
    cases Members.get? t m.name with
    | none => exact Or.inr rfl
    | some w => exact Or.inl rfl

/-- The step to an item is taken to the value behind as many others. -/
theorem reach_item {before after : List Value} {v : Value} (rest : Location) :
    reach (.list (before ++ v :: after)) (.item before.length :: rest) = reach v rest := by
  show (before ++ v :: after)[before.length]?.bind _ = _
  rw [List.getElem?_append_right (Nat.le_refl _), Nat.sub_self]
  rfl

/-- The way to the first fault leads to the value that is shown, or to an object that lacks a member
and that is shown with the path of its file. -/
theorem FirstFault.exists_reach {v : Value} {f : Fault} (h : FirstFault v f) :
    ∃ reached, reach v f.location = some reached ∧
      (f.found = reached ∨ ∃ source, f.found = FileFindings.stamp source reached) := by
  cases h with
  | notArray => exact ⟨v, reach_nil v, Or.inl rfl⟩
  | entry _ he =>
    simp only [Fault.within, reach_item]
    cases he with
    | notObject => exact ⟨_, reach_nil _, Or.inl rfl⟩
    | source => exact ⟨_, rfl, Or.inl rfl⟩
    | warnings => exact ⟨_, rfl, Or.inl rfl⟩
    | @finding t source before after w f _ hwarnings _ hw =>
      obtain ⟨reached, hreached, hfound⟩ := hw.exists_reach
      refine ⟨reached, ?_, hfound.imp_right fun h => ⟨source, h⟩⟩
      show (Members.get? t "warnings").bind _ = _
      rw [hwarnings, Option.bind_some]
      exact (reach_item f.location).trans hreached

/-! ## Reading a place back from its text -/

/-- The characters of a step that is not the first one. -/
def stepChars : Step → List Char
  | .item i => '[' :: (toString i).toList ++ [']']
  | .member name => '.' :: name.toList

/-- The characters of a name of a member in the text of a place. -/
def isNameChar (c : Char) : Bool := c ≠ '.' && c ≠ '['

/-- The steps that a text tells. -/
def readSteps (cs : List Char) : Option Location :=
  match cs with
  | [] => some []
  | '[' :: cs =>
    let digits := cs.takeWhile (· ≠ ']')
    (readSteps ((cs.dropWhile (· ≠ ']')).drop 1)).map (.item (Decimal.ofDigits digits) :: ·)
  | '.' :: cs =>
    let name := cs.takeWhile isNameChar
    (readSteps (cs.dropWhile isNameChar)).map (.member (String.ofList name) :: ·)
  | _ => none
termination_by cs.length
decreasing_by
  · have hdrop := (List.dropWhile_suffix (l := cs) (· ≠ ']')).length_le
    simp only [List.length_drop, List.length_cons]
    omega
  · have hdrop := (List.dropWhile_suffix (l := cs) isNameChar).length_le
    simp only [List.length_cons]
    omega

/-- The place that a text tells: the top of the document by its own name, or a list of steps. -/
def readLocation (text : String) : Option Location :=
  if text = "<root>" then some [] else readSteps text.toList

/-- What the text of a place leads to in a document. -/
def follow (v : Value) (text : String) : Option Value := (readLocation text).bind (reach v)

/-- A step whose text can be told from what comes after it. -/
inductive IsLegible : Step → Prop
  | item (i : Nat) : IsLegible (.item i)
  | member {name : String} (h : name.toList.all isNameChar = true) : IsLegible (.member name)

/-- A text of steps goes on with a mark, or ends. -/
theorem stop_of_steps (steps : Location) :
    (steps.flatMap stepChars).takeWhile isNameChar = [] ∧
      (steps.flatMap stepChars).dropWhile isNameChar = steps.flatMap stepChars := by
  cases steps with
  | nil => exact ⟨rfl, rfl⟩
  | cons step steps => cases step <;> exact ⟨rfl, rfl⟩

/-- The characters of legible steps are read back as the steps. -/
theorem readSteps_stepChars {steps : Location} (h : ∀ step ∈ steps, IsLegible step) :
    readSteps (steps.flatMap stepChars) = some steps := by
  induction steps with
  | nil => rw [List.flatMap_nil, readSteps]
  | cons step steps ih =>
    have ih := ih fun other hother => h other (List.mem_cons_of_mem step hother)
    rw [List.flatMap_cons]
    cases h step List.mem_cons_self with
    | item i =>
      have hdigits : ∀ c ∈ Nat.toDigits 10 i, decide (c ≠ ']') = true := by
        intro c hc
        have hdigit := Json.isDigit_of_mem_toDigits c hc
        rw [decide_eq_true_eq]
        rintro rfl
        cases hdigit
      have hvalue : Decimal.ofDigits (Nat.toDigits 10 i) = i := Nat.ofDigitChars_ten_toDigits
      rw [stepChars, Json.toList_toString_ofNat, List.append_assoc, List.cons_append, readSteps]
      simp only [List.takeWhile_append_of_pos hdigits, List.dropWhile_append_of_pos hdigits]
      simp [ih, hvalue]
    | @member name hlegible =>
      have hname := List.all_eq_true.mp hlegible
      obtain ⟨htake, hdrop⟩ := stop_of_steps steps
      rw [stepChars, List.cons_append, readSteps]
      simp only [List.takeWhile_append_of_pos hname, List.dropWhile_append_of_pos hname, htake,
        hdrop, ih]
      simp

/-- Adding steps to a text that has characters adds their characters. -/
theorem toList_foldl_addStep {rendered : String} (h : rendered ≠ "") (steps : Location) :
    (steps.foldl addStep rendered).toList = rendered.toList ++ steps.flatMap stepChars := by
  induction steps generalizing rendered with
  | nil => simp
  | cons step steps ih =>
    have hstep : (addStep rendered step).toList = rendered.toList ++ stepChars step := by
      cases step with
      | item i => simp [addStep, stepChars]
      | member name =>
        have hempty : rendered.isEmpty = false := by rwa [String.isEmpty_eq_false_iff]
        simp [addStep, stepChars, hempty]
    have hne : addStep rendered step ≠ "" := by
      intro heq
      rw [heq] at hstep
      exact h (String.toList_eq_nil_iff.mp (List.append_eq_nil_iff.mp hstep.symm).1)
    rw [List.foldl_cons, ih hne, hstep, List.flatMap_cons, List.append_assoc]

/-- The text of a place that is not the top is that of its steps. -/
theorem toList_locationText (i : Nat) (steps : Location) :
    (locationText (.item i :: steps)).toList = (Step.item i :: steps).flatMap stepChars := by
  have hfirst : (addStep "" (.item i)).toList = stepChars (.item i) := by
    simp [addStep, stepChars]
  have hne : addStep "" (.item i) ≠ "" := by
    intro heq
    rw [heq] at hfirst
    cases hfirst
  have hall := toList_foldl_addStep hne steps
  rw [hfirst] at hall
  have hrendered : ((Step.item i :: steps).foldl addStep "").isEmpty = false := by
    rw [String.isEmpty_eq_false_iff, List.foldl_cons]
    intro heq
    rw [heq] at hall
    cases hall
  unfold locationText
  simp only [hrendered, Bool.false_eq_true, if_false]
  rw [List.foldl_cons, hall, List.flatMap_cons]

/-- The text of a location is read back as the location. -/
theorem readLocation_locationText {i : Nat} {steps : Location}
    (h : ∀ step ∈ steps, IsLegible step) :
    readLocation (locationText (.item i :: steps)) = some (.item i :: steps) := by
  have htext := toList_locationText i steps
  have hroot : locationText (.item i :: steps) ≠ "<root>" := by
    intro heq
    rw [heq] at htext
    cases htext
  unfold readLocation
  rw [if_neg hroot, htext]
  exact readSteps_stepChars (List.forall_mem_cons.mpr ⟨.item i, h⟩)

/-- The text of a place is read back as the way to it. -/
theorem Place.readLocation_text (p : Place) : readLocation p.text = some p.location := by
  have hwarnings : IsLegible (.member "warnings") := .member rfl
  cases p with
  | top => rfl
  | entry i => exact readLocation_locationText (by simp)
  | entryMember i m =>
    have hname : IsLegible (.member m.name) := by
      cases m <;> exact .member rfl
    exact readLocation_locationText (by simpa using hname)
  | finding i j => exact readLocation_locationText (by simpa using ⟨hwarnings, .item j⟩)
  | findingMember i j m =>
    have hname : IsLegible (.member m.name) := by
      cases m <;> exact .member rfl
    exact readLocation_locationText (by simpa using ⟨hwarnings, .item j, hname⟩)

/-- The members of a file entry have a name each. -/
theorem EntryMember.name_injective : Function.Injective EntryMember.name := by
  intro m n
  cases m <;> cases n <;> decide

/-- The members of a finding have a name each. -/
theorem FindingMember.name_injective : Function.Injective FindingMember.name := by
  intro m n
  cases m <;> cases n <;> decide

/-- Each place in a report has a location of its own. -/
theorem Place.location_injective : Function.Injective Place.location := by
  intro p q h
  cases p <;> cases q <;>
    simp only [Place.location, List.cons.injEq, List.nil_eq, Step.item.injEq, Step.member.injEq,
      Int.ofNat_inj, EntryMember.name_injective.eq_iff, FindingMember.name_injective.eq_iff,
      and_true, true_and, reduceCtorEq, and_false] at h
  all_goals simp only [h]

/-- No two places are written alike. -/
theorem Place.text_injective : Function.Injective Place.text := by
  intro p q h
  have hlocation : some p.location = some q.location := by
    rw [← p.readLocation_text, ← q.readLocation_text, h]
  exact Place.location_injective (Option.some.inj hlocation)

/-! ## The error of a report -/

/-- A text stands for a value: a text for itself, any other value is described by it. -/
def StandsForValue (text : String) (v : Value) : Prop :=
  v = .text text ∨ (∀ s, v ≠ .text s) ∧ text = v.describe

/-- What an error shows of a text: the whole of it, or its first 120 characters followed by three
dots where it has more. -/
def IsExcerpt (shown text : String) : Prop :=
  (text.length ≤ 120 ∧ shown = text) ∨
    ∃ kept rest : List Char, text.toList = kept ++ rest ∧ kept.length = 120 ∧ rest ≠ [] ∧
      shown = String.ofList (kept ++ ['.', '.', '.'])

/-- The text cut to its first characters is an excerpt of it. -/
theorem isExcerpt_excerpt (text : String) : IsExcerpt (excerpt text) text := by
  unfold IsExcerpt excerpt
  by_cases h : fragmentLimit < text.length
  · have hmore : 120 < text.toList.length := by
      rw [String.length_toList]
      exact h
    rw [if_pos h]
    refine Or.inr ⟨text.toList.take 120, text.toList.drop 120, (List.take_append_drop _ _).symm,
      List.length_take_of_le (Nat.le_of_lt hmore), ?_, ?_⟩
    · rw [Ne, List.drop_eq_nil_iff]
      omega
    · rw [String.ofList_append]
      rfl
  · rw [if_neg h]
    exact Or.inl ⟨Nat.le_of_not_lt h, rfl⟩

/-- The fragment of a value is what is shown of the text that stands for it. -/
theorem exists_isExcerpt_fragmentOf (v : Value) :
    ∃ text, StandsForValue text v ∧ IsExcerpt (fragmentOf v) text := by
  cases v with
  | text s => exact ⟨s, Or.inl rfl, isExcerpt_excerpt s⟩
  | _ => exact ⟨_, Or.inr ⟨fun _ => Value.noConfusion, rfl⟩, isExcerpt_excerpt _⟩

/-- A JSON text that is no report and uses the names of the linter is refused for its first fault:
the error gives the reason and the place, the text of which leads from the top of the document to the
value at fault or to the object that lacks a member, and it shows the text of this value, or of this
object with the path of its file, cut to 120 characters. Nothing else is written like that place. -/
theorem ofText_names_first_fault {s : String} {v : Value}
    (hread : Json.read? (dropMarks s) = some v) (hnames : NamesOwnMembers v) (hbad : ¬ IsReport v) :
    ∃ (f : Fault) (p : Place) (reached : Value) (text shown : String),
      FirstFault v f ∧ f.location = p.location ∧
      ofText s = .error { reason := f.complaint.message, location := p.text, fragment := shown } ∧
      follow v p.text = some reached ∧
      (f.found = reached ∨ ∃ source, f.found = FileFindings.stamp source reached) ∧
      StandsForValue text f.found ∧ IsExcerpt shown text ∧
      ∀ q : Place, q.text = p.text → q = p := by
  have hdoc := Json.isDocument_of_read? hread
  cases hresult : ofDocument v with
  | sound found => exact absurd ((exists_ofDocument_iff hdoc).mp ⟨found, hresult⟩) hbad
  | faulty first others =>
    have hfirst : FirstFault v first := firstFault_of_firstFault? hdoc hnames (by rw [hresult]; rfl)
    obtain ⟨p, hp⟩ := hfirst.exists_place
    obtain ⟨reached, hreached, hfound⟩ := hfirst.exists_reach
    obtain ⟨text, htext, hshown⟩ := exists_isExcerpt_fragmentOf first.found
    refine ⟨first, p, reached, text, fragmentOf first.found, hfirst, hp, ?_, ?_, hfound, htext,
      hshown, fun q hq => Place.text_injective hq⟩
    · rw [ofText_of_read hread, hresult, Place.text, ← hp]
      rfl
    · rw [follow, p.readLocation_text, Option.bind_some, ← hp, hreached]

/-- A text whose description is longer than itself. -/
def separators : String := String.ofList (List.replicate 13 '\u2028')

/-- A report whose second finding has a note and no message. -/
def curtReport : String :=
  "[\x7b\"source\":\"a.css\",\"warnings\":[\x7b\"line\":1,\"text\":\"t\",\"rule\":\"r\"\x7d," ++
    "\x7b\"line\":2,\"note\":\"" ++ separators ++ "\"\x7d]\x7d]"

/-- The object for that finding. -/
def curtFinding : Value := .record [("line", .int 2), ("note", .text separators)]

/-- The document of that report. -/
def curtDocument : Value :=
  .list [.record [("source", .text "a.css"), ("warnings", .list
    [.record [("line", .int 1), ("text", .text "t"), ("rule", .text "r")], curtFinding])]]

/-- What is shown of the object: it is cut within the path of its file. -/
def curtFragment : String :=
  "\x7b'line': 2, 'note': '\\u2028\\u2028\\u2028\\u2028\\u2028\\u2028\\u2028\\u2028\\u2028\\u2028" ++
    "\\u2028\\u2028\\u2028', 'source_path': 'a...."

set_option maxRecDepth 2000 in
/-- The report is the text of the document. -/
theorem read_curtReport : Json.read? (dropMarks curtReport) = some curtDocument := rfl

/-- The report uses the names of the linter. -/
theorem namesOwnMembers_curtDocument : NamesOwnMembers curtDocument := by
  rintro _ ⟨⟩ _ he t rfl
  obtain ⟨⟩ := List.mem_singleton.mp he
  refine ⟨namesOwn_of_some rfl, namesOwn_of_some rfl, ?_⟩
  rintro _ ⟨⟩ _ hw u rfl
  rcases List.mem_cons.mp hw with ⟨⟨⟩⟩ | hw
  · exact ⟨namesOwn_of_some rfl, namesOwn_of_some rfl⟩
  · obtain ⟨⟩ := List.mem_singleton.mp hw
    exact ⟨fun _ => rfl, fun _ => rfl⟩

/-- The error leads to the object for the second finding, and shows the start of its text with the
path of its file. -/
theorem ofText_names_first_fault_curtReport :
    ofText curtReport = .error ⟨"Field required", "[0].warnings[1].text", curtFragment⟩ ∧
      follow curtDocument "[0].warnings[1].text" = some curtFinding ∧
      ∃ f text, FirstFault curtDocument f ∧
        f.location = (Place.findingMember 0 1 .text).location ∧ StandsForValue text f.found ∧
        IsExcerpt curtFragment text ∧ 120 < text.length := by
  have hshown : FormatError.ofFault ⟨(Place.findingMember 0 1 .text).location, .missing,
      FileFindings.stamp "a.css" curtFinding⟩ =
        ⟨"Field required", "[0].warnings[1].text", curtFragment⟩ := by decide +kernel
  have herror : ofText curtReport =
      .error ⟨"Field required", "[0].warnings[1].text", curtFragment⟩ := by
    rw [ofText_of_read read_curtReport, ← hshown]
    rfl
  have hbad : ¬ IsReport curtDocument := by
    intro hreport
    obtain ⟨found, hfound⟩ :=
      (exists_ofDocument_iff (Json.isDocument_of_read? read_curtReport)).mpr hreport
    cases hfound
  obtain ⟨f, p, reached, text, shown, hfirst, hplace, htext, -, -, hstands, hexcerpt, honly⟩ :=
    ofText_names_first_fault read_curtReport namesOwnMembers_curtDocument hbad
  rw [herror] at htext
  have hp : (Place.findingMember 0 1 .text).text = p.text :=
    congrArg FormatError.location (Except.error.inj htext)
  obtain rfl : curtFragment = shown := congrArg FormatError.fragment (Except.error.inj htext)
  refine ⟨herror, ?_, f, text, hfirst, by rw [hplace, honly _ hp], hstands, hexcerpt, ?_⟩
  · show (readLocation (Place.findingMember 0 1 .text).text).bind (reach curtDocument) = _
    rw [Place.readLocation_text]
    rfl
  · rcases hexcerpt with ⟨hshort, rfl⟩ | ⟨kept, rest, hsplit, hkept, hrest, -⟩
    · exact absurd hshort (by decide +kernel)
    · rw [← String.length_toList, hsplit, List.length_append, hkept]
      exact Nat.lt_add_of_pos_right (List.length_pos_iff.mpr hrest)

end Report

end LintGateway
