/-!
# Scripts

The host starts the linter through small scripts, so the model of the host knows the core of the
language of the standard shell: simple commands with words, assignments and joined output streams,
sequences, the two conditional joins, `for`, `while` and `if`. A script outside this core is not a
script.
-/

set_option autoImplicit false

namespace LintGateway.Shell

/-- An integer expression over variables. -/
inductive Sum where
  | number (n : Int)
  | named (name : String)
  | plus (a b : Sum)
  | minus (a b : Sum)
  | times (a b : Sum)

/-- A part of a word. A quoted part is never split at its blanks. -/
inductive Piece where
  | text (s : String) (quoted : Bool)
  | parameter (name : String) (quoted : Bool)
  | parameterOr (name fallback : String) (orEmpty quoted : Bool)
  | arguments (quoted : Bool)
  | sum (e : Sum)

/-- A word before its parameters are known. -/
abbrev Word := List Piece

/-- An output stream of a process. -/
inductive Stream where
  | output
  | errors
deriving DecidableEq, Repr

/-- What one of the two output streams is joined to. -/
structure Redirection where
  source : Stream
  target : Stream
deriving DecidableEq, Repr

/-- A command of a script. -/
inductive Command where
  | simple (assignments : List (String × Word)) (words : List Word)
      (redirections : List Redirection)
  | both (a b : Command)
  | either (a b : Command)
  | each (name : String) (items : List Word) (body : List Command)
  | loop (condition body : List Command)
  | choice (condition yes no : List Command)

end LintGateway.Shell
