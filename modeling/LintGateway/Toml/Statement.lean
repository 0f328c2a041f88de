import LintGateway.Toml.Body
import LintGateway.Toml.Quotation
import LintGateway.Toml.Scalar

/-!
# Statements of TOML

A document is a list of lines, of which each holds at most one statement: a key with its value, or
the header of a table or of an array of tables. The values are read here too; the tables between
braces are complete as soon as they are closed.
-/

set_option autoImplicit false

namespace LintGateway.Toml

/-- One statement of a document. -/
inductive Statement where
  | assign (key : List String) (v : Value)
  | table (key : List String)
  | tables (key : List String)

/-- Whether a character stands in a key without quotes. -/
def isBareKeyChar (c : Char) : Bool := c.isAlphanum || c = '-' || c = '_'

/-- Reads one part of a key. -/
def readKeyPart : Reader String := fun cs =>
  match cs with
  | '"' :: more => readBasic false .none [] more
  | '\x27' :: more => readLiteral false [] more
  | cs =>
    let bare := cs.takeWhile isBareKeyChar
    if bare.isEmpty then .error .malformed
    else .ok (String.ofList bare, cs.dropWhile isBareKeyChar)

/-- Reads a key of at most `most` parts with the space after it. -/
def readKeyParts : Nat → Reader (List String)
  | 0, _ => .error .malformed
  | most + 1, cs => do
    let (part, cs) ← readKeyPart cs
    match skipSpace cs with
    | '.' :: cs =>
      let (parts, cs) ← readKeyParts most (skipSpace cs)
      return (part :: parts, cs)
    | cs => return ([part], cs)

/-- Reads a key with the space after it. -/
def readKey : Reader (List String) := fun cs => readKeyParts (cs.length + 1) cs

/-- The text after a comment, if one starts here: its line feed and what follows. -/
def skipComment : List Char → Except Error (List Char)
  | '#' :: cs =>
    let comment := cs.takeWhile (· ≠ '\n')
    if comment.any isControl then .error .malformed else .ok (cs.dropWhile (· ≠ '\n'))
  | cs => .ok cs

/-- The text after space, line feeds and comments. -/
def skipGap (inComment : Bool) : List Char → Except Error (List Char)
  | [] => .ok []
  | c :: cs =>
    if c = '\n' then skipGap false cs
    else if inComment then (if isControl c then .error .malformed else skipGap true cs)
    else if isSpace c then skipGap false cs
    else if c = '#' then skipGap true cs
    else .ok (c :: cs)

/-- Reads the rest of an array from an item on, of at most `most` items. -/
def readItems (readOne : Reader Value) : Nat → Reader (List Value)
  | 0, _ => .error .malformed
  | most + 1, cs => do
    let (v, cs) ← readOne cs
    match ← skipGap false cs with
    | ']' :: cs => return ([v], cs)
    | ',' :: cs =>
      match ← skipGap false cs with
      | ']' :: cs => return ([v], cs)
      | cs =>
        let (vs, cs) ← readItems readOne most cs
        return (v :: vs, cs)
    | _ => .error .malformed

/-- Reads an array after its bracket. -/
def readArray (readOne : Reader Value) : Reader Value := fun cs => do
  match ← skipGap false cs with
  | ']' :: cs => return (.list [], cs)
  | cs =>
    let (vs, cs) ← readItems readOne (cs.length + 1) cs
    return (.list vs, cs)

/-- Reads a key with its value. -/
def readAssignment (readOne : Reader Value) : Reader (List String × Value) := fun cs => do
  match ← readKey cs with
  | (key, '=' :: cs) =>
    let (v, cs) ← readOne (skipSpace cs)
    return ((key, v), cs)
  | _ => .error .malformed

/-- Reads the rest of a table between braces from a key on, of at most `most` keys. -/
def readMembers (readOne : Reader Value) : Nat → Body → Reader Value
  | 0, _, _ => .error .malformed
  | most + 1, body, cs => do
    let ((key, v), cs) ← readAssignment readOne cs
    let body ← Body.assign 0 v key body
    match skipSpace cs with
    | '\x7d' :: cs => return (.record (bodyTable body), cs)
    | ',' :: cs => readMembers readOne most body (skipSpace cs)
    | _ => .error .malformed

/-- Reads a table after its brace. -/
def readInlineTable (readOne : Reader Value) : Reader Value := fun cs =>
  match skipSpace cs with
  | '\x7d' :: cs => .ok (.record [], cs)
  | cs => readMembers readOne (cs.length + 1) [] cs

/-- Reads a value without brackets or braces. -/
def readSimple : Reader Value := fun cs =>
  match readQuotation? cs with
  | some r => r.map fun r => (.text r.1, r.2)
  | none => readScalar cs

/-- How much the brackets and braces around a value may weigh together: an array weighs two, a table
three. -/
def maxWeight : Nat := 988

/-- Reads a value in which the brackets and braces around each other weigh at most so much. -/
def readValueWithin : Nat → Reader Value
  | left + 3, '\x7b' :: cs => readInlineTable (readValueWithin left) cs
  | _, '\x7b' :: _ => .error .tooDeep
  | left + 2, '[' :: cs => readArray (readValueWithin left) cs
  | _, '[' :: _ => .error .tooDeep
  | _, cs => readSimple cs

/-- Reads a value. -/
def readValue : Reader Value := readValueWithin maxWeight

/-- Reads the key of a header up to the brackets that close it. -/
def readHeader (closing : List Char) : Reader (List String) := fun cs => do
  let (key, cs) ← readKey (skipSpace cs)
  match Text.afterWord closing cs with
  | some cs => return (key, cs)
  | none => .error .malformed

/-- Reads the statement of a line, if it has one. -/
def readStatement : Reader (Option Statement)
  | [] => .ok (none, [])
  | '\n' :: cs => .ok (none, '\n' :: cs)
  | '#' :: cs => .ok (none, '#' :: cs)
  | '[' :: '[' :: cs => (readHeader [']', ']'] cs).map fun r => (some (.tables r.1), r.2)
  | '[' :: cs => (readHeader [']'] cs).map fun r => (some (.table r.1), r.2)
  | cs => (readAssignment readValue cs).map fun r => (some (.assign r.1.1 r.1.2), r.2)

/-- Reads a line with its comment up to its end. -/
def readLine : Reader (Option Statement) := fun cs => do
  let (statement, cs) ← readStatement (skipSpace cs)
  match ← skipComment (skipSpace cs) with
  | [] => return (statement, [])
  | '\n' :: cs => return (statement, cs)
  | _ => .error .malformed

/-- The statements of a text of at most `most` lines, up to the first error, and that error. -/
def readLines : Nat → List Char → List Statement × Option Error
  | 0, _ => ([], none)
  | _, [] => ([], none)
  | most + 1, cs =>
    match readLine cs with
    | .error e => ([], some e)
    | .ok (statement, cs) =>
      let (statements, ending) := readLines most cs
      (statement.toList ++ statements, ending)

/-- The statements of a text up to the first error, and that error. -/
def statements (s : String) : List Statement × Option Error :=
  let cs := (Text.replace "\r\n" "\n" s).toList
  readLines (cs.length + 1) cs

/-- The statements of a text are those of its lines, with every end of a line made one. -/
theorem statements_ofList (cs : List Char) :
    statements (String.ofList cs) =
      readLines ((Text.replaceChars ['\r', '\n'] ['\n'] 0 cs).length + 1)
        (Text.replaceChars ['\r', '\n'] ['\n'] 0 cs) := by
  unfold statements Text.replace
  simp only [String.toList_ofList]
  rfl

end LintGateway.Toml
