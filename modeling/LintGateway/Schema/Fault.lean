import LintGateway.Value.Text

/-!
# Faults

Records are read from values member by member, and everything that does not fit is a fault: the
place where it was found, what is wrong, and the value found there. A fault has a short code and a
sentence; sequences and records that come from a document are called arrays and objects in it, those
that come from program data are called after the record wanted.
-/

set_option autoImplicit false

namespace LintGateway.Schema

/-- One step on the way to a place in a value: a member by name or an item by position. -/
inductive Step where
  | member (name : String)
  | item (index : Int)
deriving DecidableEq, Repr

/-- The way from the top of a value to a place in it. -/
abbrev Location := List Step

/-- Where a value to be read comes from. -/
inductive Origin where
  | program
  | document
deriving DecidableEq, Repr

/-- What can be wrong with a value. -/
inductive Complaint where
  | missing
  | notText
  | textTooShort
  | notBool
  | unreadableBool
  | notInt
  | unreadableInt
  | tooLongInt
  | fractionalInt
  | notFinite
  | notNumber
  | unreadableNumber
  | below (bound : Nat)
  | notSequence (origin : Origin)
  | tooLong (most found : Nat)
  | tooShort (least found : Nat)
  | notDictionary
  | notRecord (origin : Origin) (name : String)
  | notSeverity
  | notPath
  | unknownMember
  | refused (reason : String)
deriving DecidableEq, Repr

/-- A number of things, in the singular for one. -/
def counted (n : Nat) (noun : String) : String :=
  toString n ++ " " ++ noun ++ (if n = 1 then "" else "s")

namespace Complaint

/-- The short code of a complaint. -/
def code : Complaint → String
  | missing => "missing"
  | notText => "string_type"
  | textTooShort => "string_too_short"
  | notBool => "bool_type"
  | unreadableBool => "bool_parsing"
  | notInt => "int_type"
  | unreadableInt => "int_parsing"
  | tooLongInt => "int_parsing_size"
  | fractionalInt => "int_from_float"
  | notFinite => "finite_number"
  | notNumber => "float_type"
  | unreadableNumber => "float_parsing"
  | below _ => "greater_than_equal"
  | notSequence .program => "tuple_type"
  | notSequence .document => "tuple_type"
  | tooLong _ _ => "too_long"
  | tooShort _ _ => "too_short"
  | notDictionary => "dict_type"
  | notRecord _ _ => "model_type"
  | notSeverity => "enum"
  | notPath => "path_type"
  | unknownMember => "extra_forbidden"
  | refused _ => "value_error"

/-- The sentence of a complaint. -/
def message : Complaint → String
  | missing => "Field required"
  | notText => "Input should be a valid string"
  | textTooShort => "String should have at least 1 character"
  | notBool => "Input should be a valid boolean"
  | unreadableBool => "Input should be a valid boolean, unable to interpret input"
  | notInt => "Input should be a valid integer"
  | unreadableInt => "Input should be a valid integer, unable to parse string as an integer"
  | tooLongInt => "Unable to parse input string as an integer, exceeded maximum size"
  | fractionalInt => "Input should be a valid integer, got a number with a fractional part"
  | notFinite => "Input should be a finite number"
  | notNumber => "Input should be a valid number"
  | unreadableNumber => "Input should be a valid number, unable to parse string as a number"
  | below bound => "Input should be greater than or equal to " ++ toString bound
  | notSequence .program => "Input should be a valid tuple"
  | notSequence .document => "Input should be a valid array"
  | tooLong most found =>
    "Tuple should have at most " ++ counted most "item" ++ " after validation, not " ++
      toString found
  | tooShort least found =>
    "Tuple should have at least " ++ counted least "item" ++ " after validation, not " ++
      toString found
  | notDictionary => "Input should be a valid dictionary"
  | notRecord .program name => "Input should be a valid dictionary or instance of " ++ name
  | notRecord .document _ => "Input should be an object"
  | notSeverity => "Input should be 'error' or 'warning'"
  | notPath => "Input is not a valid path for <class 'pathlib.Path'>"
  | unknownMember => "Extra inputs are not permitted"
  | refused reason => "Value error, " ++ reason

end Complaint

/-- Something wrong at a place in a value. -/
structure Fault where
  location : Location
  complaint : Complaint
  /-- The value found there; for a missing member, the record that lacks it. -/
  found : Value

end LintGateway.Schema
