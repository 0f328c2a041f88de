import LintGateway.Refusal
import LintGateway.Schema.Record
import LintGateway.Value.Agreement

/-!
# Rule options

The options of a rule are pairs of a name and a value, in the order given and with repetitions.
They come as a record or as a list of pairs. Stored options are frozen: every sequence in them is a
tuple, at any depth.
-/

set_option autoImplicit false

namespace LintGateway

namespace Value

mutual

/-- The value with every sequence in it turned into a tuple. -/
def freeze : Value → Value
  | list items => tuple (freezeItems items)
  | tuple items => tuple (freezeItems items)
  | record members => record (freezeMembers members)
  | v => v

/-- The frozen items of a sequence. -/
def freezeItems : List Value → List Value
  | [] => []
  | v :: vs => freeze v :: freezeItems vs

/-- The members of a record with frozen values. -/
def freezeMembers : List (String × Value) → List (String × Value)
  | [] => []
  | (name, v) :: ms => (name, freeze v) :: freezeMembers ms

end

end Value

namespace Rule

/-- Names with values, in order; a name may come again. -/
abbrev Options := List (String × Value)

namespace Options

open Schema

/-- Options as a value: a tuple of pairs. -/
def toValue (options : Options) : Value :=
  .tuple (options.map fun o => .tuple [.text o.1, o.2])

/-- Options as a record: of a repeated name the first place and the last value stay. -/
def toTable (options : Options) : Value.Table := Members.ofList options

/-- Whether two lists of options agree pair by pair. -/
def agrees (a b : Options) : Bool := a.toValue.agrees b.toValue

/-- A pair of a text and any value. -/
def readPair (v : Value) : Checked (String × Value) :=
  let read (items : List Value) : Checked (String × Value) :=
    if 2 < items.length then Checked.reject (.tooLong 2 items.length) v
    else
      let missing {α : Type} : Checked α := Checked.reject .missing v
      let name := match items[0]? with
        | some name => readText name
        | none => missing
      let value := match items[1]? with
        | some value => .sound value
        | none => missing
      Prod.mk <$> Checked.under (.item 0) name <*> Checked.under (.item 1) value
  match v with
  | .list items => read items
  | .tuple items => read items
  | _ => Checked.reject (.notSequence .program) v

/-- A sequence of pairs, as they are. -/
def read : Value → Checked Options := readSequence .program readPair

/-- The frozen pair that an entry of a sequence gives; its name may be any value that has a text and
is taken as that text. An entry that is no pair is told by its description, if it has one. -/
def freezePair (entry : Value) : Except Refusal (String × Value) :=
  let named (name v : Value) : Except Refusal (String × Value) :=
    if name.isWritable then .ok (name.toText, v.freeze) else .error .longInteger
  match entry with
  | .list [name, v] => named name v
  | .tuple [name, v] => named name v
  | _ => .error (if entry.isWritable then .malformedOption entry else .longInteger)

/-- Options in any of their forms, frozen: nothing at all, a record, or a sequence of pairs. -/
def readFrozen (v : Value) : Checked Options :=
  let ofItems (items : List Value) : Checked Options :=
    match items.mapM freezePair with
    | .ok options => .sound options
    | .error refusal => Checked.reject (.refused refusal.message) v
  match v with
  | .null => .sound []
  | .record members => .sound (Value.freezeMembers members)
  | .list items => ofItems items
  | .tuple items => ofItems items
  | _ => Checked.reject (.notSequence .program) v

/-- Options of an activation: absent, a record, or a sequence of pairs, as they are. -/
def readGiven : Value → Checked (Option Options)
  | .null => .sound none
  | .record members => .sound (some members)
  | v => some <$> read v

end Options

end Rule

end LintGateway
