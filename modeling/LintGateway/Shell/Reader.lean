import LintGateway.Decimal.Numeral
import LintGateway.Shell.Script
import LintGateway.Text.Split

/-!
# Reading scripts

A script is cut into tokens, words and the marks between them, and the tokens are put together to
commands. What is not in the core of the language makes the whole script unreadable.
-/

set_option autoImplicit false

namespace LintGateway.Shell

/-- A token of a script. -/
inductive Token where
  | word (w : Word)
  | separator
  | both
  | either
  | redirection (r : Redirection)

/-- Whether a character can start a name. -/
def isNameStart (c : Char) : Bool := c.isAlpha || c = '_'

/-- Whether a character can stand in a name. -/
def isNameChar (c : Char) : Bool := c.isAlphanum || c = '_'

/-- Whether a character ends a word that is not quoted. -/
def endsWord (c : Char) : Bool := c ∈ [' ', '\t', '\n', ';', '&', '|', '<', '>', '(', ')']

/-- Whether a character is a parameter of its own. -/
def isSpecialParameter (c : Char) : Bool := c ∈ ['?', '#', '$'] || c.isDigit

/-- The text after the space at its start. -/
def skipSpace (cs : List Char) : List Char := cs.dropWhile fun c => c = ' ' || c = '\t'

/-- Reads an operand of an expression. -/
def readOperand (cs : List Char) : Option (Sum × List Char) :=
  match skipSpace cs with
  | '$' :: cs => named cs
  | cs =>
    let digits := cs.takeWhile Char.isDigit
    if digits.isEmpty then named cs
    else some (.number (Decimal.ofDigits digits), cs.dropWhile Char.isDigit)
where
  /-- A variable as an operand. -/
  named (cs : List Char) : Option (Sum × List Char) :=
    let name := cs.takeWhile isNameChar
    if name.isEmpty then none
    else some (.named (String.ofList name), cs.dropWhile isNameChar)

/-- Reads the rest of a product after its first factor. -/
def readFactors : Nat → Sum → List Char → Option (Sum × List Char)
  | 0, _, _ => none
  | most + 1, e, cs =>
    match skipSpace cs with
    | '*' :: cs => do
      let (f, cs) ← readOperand cs
      readFactors most (.times e f) cs
    | cs => some (e, cs)

/-- Reads a product. -/
def readProduct (cs : List Char) : Option (Sum × List Char) := do
  let (e, cs) ← readOperand cs
  readFactors (cs.length + 1) e cs

/-- Reads the rest of a sum after its first term, up to the end of the expression. -/
def readTerms : Nat → Sum → List Char → Option (Sum × List Char)
  | 0, _, _ => none
  | most + 1, e, cs =>
    match skipSpace cs with
    | '+' :: cs => do
      let (f, cs) ← readProduct cs
      readTerms most (.plus e f) cs
    | '-' :: cs => do
      let (f, cs) ← readProduct cs
      readTerms most (.minus e f) cs
    | ')' :: ')' :: cs => some (e, cs)
    | _ => none

/-- Reads an expression after its opening parentheses. -/
def readSum (cs : List Char) : Option (Sum × List Char) := do
  let (e, cs) ← readProduct cs
  readTerms (cs.length + 1) e cs

/-- Reads a parameter between braces. -/
def readBraced (quoted : Bool) (cs : List Char) : Option (Piece × List Char) :=
  let name := match cs.takeWhile isNameChar with
    | [] => cs.take 1
    | name => name
  let rest := cs.drop name.length
  let name := String.ofList name
  let fallback (orEmpty : Bool) (cs : List Char) : Option (Piece × List Char) :=
    let text := cs.takeWhile (· ≠ '\x7d')
    some (.parameterOr name (String.ofList text) orEmpty quoted, cs.drop (text.length + 1))
  match rest with
  | '\x7d' :: rest => some (.parameter name quoted, rest)
  | ':' :: '-' :: rest => fallback true rest
  | '-' :: rest => fallback false rest
  | _ => none

/-- Reads an expansion after its dollar sign; a dollar sign before anything else is a text. -/
def readExpansion (quoted : Bool) (cs : List Char) : Option (Piece × List Char) :=
  match cs with
  | '(' :: '(' :: cs => (readSum cs).map fun r => (.sum r.1, r.2)
  | '(' :: _ => none
  | '\x7b' :: cs => readBraced quoted cs
  | '@' :: cs => some (.arguments quoted, cs)
  | c :: rest =>
    if isSpecialParameter c then some (.parameter (String.singleton c) quoted, rest)
    else if isNameStart c then
      let name := cs.takeWhile isNameChar
      some (.parameter (String.ofList name) quoted, cs.drop name.length)
    else some (.text "$" quoted, cs)
  | [] => some (.text "$" quoted, [])

/-- Reads a word with at most `most` pieces. -/
def readWord (inQuotes : Bool) : Nat → Word → List Char → Option (Word × List Char)
  | 0, _, _ => none
  | most + 1, read, cs =>
    let text (s : List Char) (rest : List Char) :=
      readWord inQuotes most (.text (String.ofList s) true :: read) rest
    match inQuotes, cs with
    | false, [] => some (read.reverse, [])
    | true, [] => none
    | true, '"' :: cs => readWord false most (.text "" true :: read) cs
    | false, '"' :: cs => readWord true most (.text "" true :: read) cs
    | false, '\x27' :: cs =>
      let inner := cs.takeWhile (· ≠ '\x27')
      match cs.drop inner.length with
      | _ :: rest => text inner rest
      | [] => none
    | false, '\\' :: '\n' :: cs => readWord inQuotes most read cs
    | false, '\\' :: c :: cs => text [c] cs
    | true, '\\' :: c :: cs =>
      if c ∈ ['$', '"', '\\', '\x60'] then text [c] cs else text ['\\', c] cs
    | _, '$' :: cs => do
      let (piece, cs) ← readExpansion inQuotes cs
      readWord inQuotes most (piece :: read) cs
    | _, '\x60' :: _ => none
    | true, c :: cs => text [c] cs
    | false, c :: cs =>
      if endsWord c then some (read.reverse, c :: cs)
      else readWord inQuotes most (.text (String.singleton c) false :: read) cs

/-- The stream of a descriptor. -/
def streamOf? : Char → Option Stream
  | '1' => some .output
  | '2' => some .errors
  | _ => none

/-- Reads a join of streams, if one starts here. -/
def readRedirection? : List Char → Option (Redirection × List Char)
  | '>' :: '&' :: d :: cs => (streamOf? d).map fun t => (⟨.output, t⟩, cs)
  | s :: '>' :: '&' :: d :: cs => do return (⟨← streamOf? s, ← streamOf? d⟩, cs)
  | _ => none

/-- Reads the tokens of a script of at most `most` tokens. -/
def readTokens : Nat → List Char → Option (List Token)
  | 0, _ => none
  | most + 1, cs =>
    match skipSpace cs with
    | [] => some []
    | '#' :: cs => readTokens most (cs.dropWhile (· ≠ '\n'))
    | '\n' :: cs => (readTokens most cs).map (.separator :: ·)
    | ';' :: cs => (readTokens most cs).map (.separator :: ·)
    | '&' :: '&' :: cs => (readTokens most cs).map (.both :: ·)
    | '|' :: '|' :: cs => (readTokens most cs).map (.either :: ·)
    | cs =>
      match readRedirection? cs with
      | some (r, cs) => (readTokens most cs).map (.redirection r :: ·)
      | none => do
        let (w, rest) ← readWord false (cs.length + 1) [] cs
        if w.isEmpty then none else (readTokens most rest).map (.word w :: ·)

/-- The text of a word without quotes and expansions. -/
def plainText? (w : Word) : Option String :=
  let plain : Piece → Option String
    | .text s false => some s
    | _ => none
  (w.mapM plain).map String.join

/-- The words that give a script its structure. -/
def reservedWords : List String :=
  ["for", "in", "do", "done", "while", "if", "then", "else", "fi"]

/-- The reserved word that a token is. -/
def reserved? : Token → Option String
  | .word w => (plainText? w).filter (· ∈ reservedWords)
  | _ => none

/-- The tokens after separators at their start. -/
def skipSeparators (ts : List Token) : List Token :=
  ts.dropWhile fun
    | .separator => true
    | _ => false

/-- The tokens after a reserved word that must come next. -/
def expect (name : String) (ts : List Token) : Option (List Token) :=
  match skipSeparators ts with
  | t :: ts => if reserved? t = some name then some ts else none
  | [] => none

/-- The name and value of a word that is an assignment. -/
def assignment? (w : Word) : Option (String × Word) :=
  let stands : Piece → Bool
    | .text s false => s ≠ "="
    | _ => false
  let name := w.takeWhile stands
  match plainText? name, w.drop name.length with
  | some n, .text "=" false :: value =>
    match n.toList with
    | c :: cs => if isNameStart c && cs.all isNameChar then some (n, value) else none
    | [] => none
  | _, _ => none

/-- Reads the words and joins of a simple command. -/
def readSimple (assignments : List (String × Word)) (words : List Word)
    (redirections : List Redirection) : List Token → Option (Command × List Token)
  | .word w :: ts =>
    match words, assignment? w with
    | [], some a => readSimple (assignments ++ [a]) words redirections ts
    | _, _ => readSimple assignments (words ++ [w]) redirections ts
  | .redirection r :: ts => readSimple assignments words (redirections ++ [r]) ts
  | ts =>
    if assignments.isEmpty && words.isEmpty && redirections.isEmpty then none
    else some (.simple assignments words redirections, ts)

/-- The words up to the next mark. -/
def takeWords : List Token → List Word × List Token
  | .word w :: ts =>
    let (ws, ts) := takeWords ts
    (w :: ws, ts)
  | ts => ([], ts)

mutual

/-- Reads commands up to a reserved word that starts none, or to the end. -/
def readList : Nat → List Token → Option (List Command × List Token)
  | 0, _ => none
  | most + 1, ts =>
    match skipSeparators ts with
    | [] => some ([], [])
    | t :: ts =>
      match reserved? t with
      | some "done" => some ([], t :: ts)
      | some "do" => some ([], t :: ts)
      | some "then" => some ([], t :: ts)
      | some "else" => some ([], t :: ts)
      | some "fi" => some ([], t :: ts)
      | _ => do
        let (c, ts) ← readJoined most (t :: ts)
        let (cs, ts) ← match ts with
          | [] => some ([], [])
          | .separator :: ts => readList most ts
          | _ => none
        return (c :: cs, ts)

/-- Reads commands joined by `&&` and `||`. -/
def readJoined : Nat → List Token → Option (Command × List Token)
  | 0, _ => none
  | most + 1, ts => do
    let (c, ts) ← readCommand most ts
    readJoins most c ts

/-- Reads the joins after a command. -/
def readJoins : Nat → Command → List Token → Option (Command × List Token)
  | 0, _, _ => none
  | most + 1, c, .both :: ts => do
    let (d, ts) ← readCommand most (skipSeparators ts)
    readJoins most (.both c d) ts
  | most + 1, c, .either :: ts => do
    let (d, ts) ← readCommand most (skipSeparators ts)
    readJoins most (.either c d) ts
  | _ + 1, c, ts => some (c, ts)

/-- Reads one command. -/
def readCommand : Nat → List Token → Option (Command × List Token)
  | 0, _ => none
  | most + 1, ts =>
    match ts with
    | t :: rest =>
      match reserved? t, rest with
      | some "for", .word name :: rest => do
        let name ← plainText? name
        let (items, rest) := takeWords (← expect "in" rest)
        let (body, rest) ← readList most (← expect "do" rest)
        return (.each name items body, ← expect "done" rest)
      | some "while", rest => do
        let (condition, rest) ← readList most rest
        let (body, rest) ← readList most (← expect "do" rest)
        return (.loop condition body, ← expect "done" rest)
      | some "if", rest => do
        let (condition, rest) ← readList most rest
        let (yes, rest) ← readList most (← expect "then" rest)
        match expect "else" rest with
        | some rest =>
          let (no, rest) ← readList most rest
          return (.choice condition yes no, ← expect "fi" rest)
        | none => return (.choice condition yes [], ← expect "fi" rest)
      | some _, _ => none
      | none, _ => readSimple [] [] [] (t :: rest)
    | [] => none

end

/-- The commands of a script. -/
def read? (s : String) : Option (List Command) := do
  let tokens ← readTokens (s.length + 1) s.toList
  match ← readList (3 * tokens.length + 3) tokens with
  | (commands, []) => return commands
  | _ => none

end LintGateway.Shell
