import LintGateway.Value.Basic

/-!
# Agreement of values

Two activations of one rule may repeat each other. They do when their option values agree: numbers
by what they count, a truth value counting as one or zero and a float by its exact value, texts and
calendar values when they are the same, those with an offset when they are the same instant,
sequences of one kind item by item, records member by member in any order. An undefined float agrees
with the same object only, and so with nothing when it is an object that stands nowhere else.
-/

set_option autoImplicit false

namespace LintGateway

/-- What a number, a float or a truth value counts. What is undefined is told by the object, if that
has a number. -/
inductive Quantity where
  | finite (q : Rat)
  | infinite (negative : Bool)
  | undefined (object : Option Nat)
deriving DecidableEq

namespace Quantity

/-- What a float counts, as the object of a number. -/
def ofFloat (x : Float) (object : Option Nat) : Quantity :=
  match Decimal.Magnitude.ofFloat x with
  | .finite b => finite b.toRat
  | .infinite negative => infinite negative
  | .notANumber => undefined object

/-- Quantities agree when they are equal, and defined or of one object. -/
def agrees (a b : Quantity) : Bool := a = b && a ≠ undefined none

end Quantity

namespace Value

/-- What a value counts, if it is a number, a float or a truth value. -/
def quantity? : Value → Option Quantity
  | bool b => some (.finite (if b then 1 else 0))
  | int n => some (.finite n)
  | float x object => some (.ofFloat x object)
  | _ => none

/-- Whether a value counts the same as a given quantity. -/
def counts (v : Value) (q : Quantity) : Bool :=
  match v.quantity? with
  | some p => q.agrees p
  | none => false

mutual

/-- Whether two values agree. -/
def agrees : Value → Value → Bool
  | null, w => match w with | null => true | _ => false
  | bool b, w => w.counts (.finite (if b then 1 else 0))
  | int n, w => w.counts (.finite n)
  | float x object, w => w.counts (.ofFloat x object)
  | text s, w => match w with | text t => s = t | _ => false
  | moment m, w => match w with | moment n => m.agrees n | _ => false
  | list vs, w => match w with | list ws => agreesItems vs ws | _ => false
  | tuple vs, w => match w with | tuple ws => agreesItems vs ws | _ => false
  | record ms, w => match w with
    | record ns => ms.length = ns.length && agreesMembers ms ns
    | _ => false

/-- Whether two sequences agree item by item. -/
def agreesItems : List Value → List Value → Bool
  | [], ws => ws.isEmpty
  | v :: vs, ws => match ws with
    | [] => false
    | w :: ws => agrees v w && agreesItems vs ws

/-- Whether every member agrees with the member of the same name in `ns`. -/
def agreesMembers : List (String × Value) → List (String × Value) → Bool
  | [], _ => true
  | (name, v) :: ms, ns => match Members.get? ns name with
    | none => false
    | some w => agrees v w && agreesMembers ms ns

end

/-- A value that counts something agrees with the values that count the same. -/
theorem agrees_eq_counts {v : Value} {q : Quantity} (h : v.quantity? = some q) (w : Value) :
    v.agrees w = w.counts q := by
  cases v with
  | bool b =>
    obtain rfl := Option.some.inj h
    rw [agrees]
  | int n =>
    obtain rfl := Option.some.inj h
    rw [agrees]
  | float x object =>
    obtain rfl := Option.some.inj h
    rw [agrees]
  | _ => cases h

end Value

end LintGateway
