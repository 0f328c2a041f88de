/-!
# Unreadable TOML

A document is malformed at some place, or holds an integer with too many digits, or nests its values
too deep. The three are told apart because only the first makes the document a bad one.
-/

set_option autoImplicit false

namespace LintGateway.Toml

/-- Why a document cannot be read. -/
inductive Error where
  | malformed
  | longInteger (digits : Nat)
  | tooDeep
deriving DecidableEq, Repr

/-- Reads something at the start of a text and gives it with the text after it. -/
abbrev Reader (α : Type) := List Char → Except Error (α × List Char)

/-- The characters that stand nowhere as they are: the controls other than the tab. -/
def isControl (c : Char) : Bool := (c.toNat < 0x20 && c ≠ '\t') || c.toNat = 0x7f

/-- The characters that part the symbols of a line. -/
def isSpace (c : Char) : Bool := c = ' ' || c = '\t'

/-- The text after the space at its start. -/
def skipSpace (cs : List Char) : List Char := cs.dropWhile isSpace

end LintGateway.Toml
