import LintGateway.Console.Lines
import LintGateway.Issue

/-!
# Showing issues

Issues are shown one by one as they are saved, or together in a summary: how many there are, in how
many files, and for each rule how many, the most frequent rule first and rules of equal count in the
order of their labels.
-/

set_option autoImplicit false

namespace LintGateway

/-- The counts of a summary. -/
structure Summary where
  issues : Nat
  files : Nat
  rules : List (String × Nat)
deriving DecidableEq, Repr

namespace Summary

/-- How often each text stands in a list, in the order of first occurrence. -/
def tally (labels : List String) : Members Nat :=
  labels.foldl (fun t label => Members.put t label ((Members.get? t label).getD 0 + 1)) []

/-- Whether one line of the summary stands before another: by count, the larger first, then by
label. -/
def precedes (a b : String × Nat) : Bool := b.2 < a.2 || (a.2 = b.2 && a.1 ≤ b.1)

/-- The counts of a list of issues. -/
def ofIssues (is : List Issue) : Summary :=
  { issues := is.length
    files := (tally (is.map fun i => i.file.toText)).length
    rules := (tally (is.map Issue.label)).mergeSort precedes }

/-- The sentence with the counts of issues and files. -/
def headline (s : Summary) : String :=
  toString s.issues ++ " issue(s) found, " ++ toString s.files ++ " file(s) affected"

/-- The line of one rule. -/
def ruleLine (r : String × Nat) : String := r.1 ++ ": " ++ toString r.2

/-- How far the lines of rules are indented. -/
def ruleIndent : Nat := 2

end Summary

namespace Console

/-- What is written for the summary of a list of issues. -/
def summary (s : Screen) (title : String) (withGlyphs : Bool) (is : List Issue) :
    Except MarkupError String :=
  let counts := Summary.ofIssues is
  let lines :=
    if is.isEmpty then status s .clean withGlyphs 0 "No issues found"
    else
      status s .findings withGlyphs 0 counts.headline ++
        String.join (counts.rules.map fun r =>
          status s .detail withGlyphs Summary.ruleIndent (Summary.ruleLine r))
  (sectionHead s title).map (· ++ lines)

/-- What is written when an issue is saved: in red when it is severe, else in yellow. -/
def issueLine (s : Screen) (i : Issue) : String :=
  let colour := Colour.hue (if i.isSevere then .red else .yellow)
  s.print [⟨i.toText, if s.colour then .ofColour colour else {}⟩]

/-- A screen that shows issues as they are saved, and how many it has shown. -/
structure IssueSink where
  screen : Screen
  count : Nat := 0

namespace IssueSink

/-- Saves an issue: the sink after it, and what is written. -/
def save (sink : IssueSink) (i : Issue) : IssueSink × String :=
  ({ sink with count := sink.count + 1 }, issueLine sink.screen i)

/-- Saves issues one after the other. -/
def saveAll (sink : IssueSink) : List Issue → IssueSink × String
  | [] => (sink, "")
  | i :: is =>
    let (sink, line) := sink.save i
    let (sink, lines) := sink.saveAll is
    (sink, line ++ lines)

/-- A sink has counted each issue that was saved in it. -/
theorem count_saveAll (sink : IssueSink) (is : List Issue) :
    (sink.saveAll is).1.count = sink.count + is.length := by
  induction is generalizing sink with
  | nil => rfl
  | cons i is ih =>
    have h := ih (sink.save i).1
    simp only [saveAll, List.length_cons]
    rw [h]
    simp only [save]
    omega

end IssueSink

end Console

end LintGateway
