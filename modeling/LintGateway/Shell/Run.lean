import LintGateway.Decimal.Binary
import LintGateway.Host.Basic
import LintGateway.Shell.Reader

/-!
# Running scripts

What a script says on its two output streams and how it ends. Time passes only where a script
sleeps; a run that is given a time limit ends when a sleep would go beyond it. The number of steps
on the way to any one command is limited too, and a script beyond that is killed, so that every run
ends.
-/

set_option autoImplicit false

namespace LintGateway.Shell

/-- How a process ends: by itself, by a signal, or not before its time is over. -/
inductive Ending where
  | exited (status : Nat)
  | killed (signal : Nat)
  | late
deriving DecidableEq, Repr

/-- What the processes of a run have said so far, and how much time they have left. -/
structure Traffic where
  output : ByteArray := .empty
  errors : ByteArray := .empty
  timeLeft : Option Rat := none

/-- Where the two output streams of a process go. -/
structure Routes where
  output : Stream := .output
  errors : Stream := .errors

/-- What stays the same while a process runs. -/
structure Frame where
  host : Host
  here : List String
  processId : Nat
  name : String
  arguments : List String
  exported : List String

/-- What changes while a script runs. -/
structure Session where
  bindings : Members String
  status : Nat
  traffic : Traffic

/-- The status of a command that is used in a wrong way. -/
def misuseStatus : Nat := 2

/-- The status of a command that is not found. -/
def notFoundStatus : Nat := 127

/-- The signal that ends a process at once. -/
def killSignal : Nat := 9

/-- The signal that asks a process to end. -/
def endSignal : Nat := 15

/-- The directories in which programs are looked up when no variable says it. -/
def standardSearch : String :=
  "/usr/local/sbin:/usr/local/bin:/usr/sbin:/usr/bin:/sbin:/bin"

/-- Where a stream goes. -/
def Routes.target (r : Routes) : Stream → Stream
  | .output => r.output
  | .errors => r.errors

/-- The routes after a join. -/
def Routes.join (r : Routes) (j : Redirection) : Routes :=
  match j.source with
  | .output => { r with output := r.target j.target }
  | .errors => { r with errors := r.target j.target }

/-- Says something on a stream. -/
def Traffic.say (t : Traffic) (r : Routes) (stream : Stream) (bytes : ByteArray) : Traffic :=
  match r.target stream with
  | .output => { t with output := t.output ++ bytes }
  | .errors => { t with errors := t.errors ++ bytes }

/-! ## Words -/

/-- The value of a parameter. -/
def parameter? (f : Frame) (s : Session) (name : String) : Option String :=
  match name.toList with
  | ['?'] => some (toString s.status)
  | ['#'] => some (toString f.arguments.length)
  | ['$'] => some (toString f.processId)
  | ['0'] => some f.name
  | cs =>
    if cs.all Char.isDigit then f.arguments[Decimal.ofDigits cs - 1]?
    else Members.get? s.bindings name

/-- The value of an expression; a variable without a number counts zero. -/
def Sum.value (s : Session) : Sum → Int
  | number n => n
  | named name => ((Members.get? s.bindings name).bind String.toInt?).getD 0
  | plus a b => a.value s + b.value s
  | minus a b => a.value s - b.value s
  | times a b => a.value s * b.value s

/-- The fields of a command line under construction: those that are finished and the open one. -/
structure Fields where
  finished : List String := []
  current : Option String := none

namespace Fields

/-- Adds a text to the open field. -/
def add (f : Fields) (s : String) : Fields := { f with current := some (f.current.getD "" ++ s) }

/-- Ends the open field. -/
def close (f : Fields) : Fields := ⟨f.finished ++ f.current.toList, none⟩

/-- Adds a text that is split at its blanks. -/
def addSplit (f : Fields) : List Char → Fields
  | [] => f
  | c :: cs =>
    if c = ' ' || c = '\t' || c = '\n' then f.close.addSplit cs
    else (f.add (String.singleton c)).addSplit cs

/-- Adds texts of which each but the last one ends a field. -/
def addEach (f : Fields) : List String → Fields
  | [] => f
  | [s] => f.add s
  | s :: ss => (f.add s).close.addEach ss

/-- All fields. -/
def toList (f : Fields) : List String := f.close.finished

end Fields

/-- Adds a piece of a word to the fields. -/
def expandPiece (frame : Frame) (s : Session) (f : Fields) : Piece → Fields
  | .text t _ => f.add t
  | .parameter name quoted => put quoted ((parameter? frame s name).getD "")
  | .parameterOr name fallback orEmpty quoted =>
    match parameter? frame s name with
    | some v => if orEmpty && v.isEmpty then put quoted fallback else put quoted v
    | none => put quoted fallback
  | .arguments quoted =>
    if quoted then f.addEach frame.arguments
    else f.addSplit (" ".intercalate frame.arguments).toList
  | .sum e => f.add (toString (e.value s))
where
  /-- Adds a value, split unless it is quoted. -/
  put (quoted : Bool) (v : String) : Fields := if quoted then f.add v else f.addSplit v.toList

/-- Whether a word stands for nothing at all when there are no arguments. -/
def isBareArguments (w : Word) : Bool :=
  w.any (fun | .arguments _ => true | _ => false) &&
    w.all fun
      | .arguments _ => true
      | .text t _ => t.isEmpty
      | _ => false

/-- The fields of a word. -/
def expandWord (frame : Frame) (s : Session) (w : Word) : List String :=
  if isBareArguments w && frame.arguments.isEmpty then []
  else (w.foldl (expandPiece frame s) {}).toList

/-- The fields of a list of words. -/
def expandWords (frame : Frame) (s : Session) (ws : List Word) : List String :=
  ws.flatMap (expandWord frame s)

/-- The value of a word that is not split. -/
def expandValue (frame : Frame) (s : Session) (w : Word) : String :=
  " ".intercalate (expandWord frame s w)

/-! ## Commands without a process of their own -/

/-- A part of a format: bytes as they are, or a field for an argument. -/
inductive FormatPart where
  | bytes (b : ByteArray)
  | field

/-- The bytes of one character. -/
def charBytes (c : Char) : ByteArray := (String.singleton c).toUTF8

/-- The byte that a one-letter escape stands for. -/
def escapedByte? : Char → Option UInt8
  | 'a' => some 7
  | 'b' => some 8
  | 't' => some 9
  | 'n' => some 10
  | 'v' => some 11
  | 'f' => some 12
  | 'r' => some 13
  | '\\' => some 92
  | _ => none

/-- The parts of a format of at most `most` parts; without fields a percent sign is a text. -/
def formatParts (fields : Bool) : Nat → List Char → List FormatPart
  | 0, _ => []
  | _, [] => []
  | most + 1, '\\' :: cs =>
    let octal := (cs.take 3).takeWhile fun c => '0' ≤ c && c ≤ '7'
    if !octal.isEmpty then
      .bytes ⟨#[(Decimal.ofDigitsIn 8 octal).toUInt8]⟩ ::
        formatParts fields most (cs.drop octal.length)
    else
      match cs with
      | c :: rest =>
        match escapedByte? c with
        | some b => .bytes ⟨#[b]⟩ :: formatParts fields most rest
        | none => .bytes (charBytes '\\') :: formatParts fields most cs
      | [] => [.bytes (charBytes '\\')]
  | most + 1, '%' :: c :: cs =>
    if !fields then .bytes (charBytes '%') :: formatParts fields most (c :: cs)
    else if c = '%' then .bytes (charBytes '%') :: formatParts fields most cs
    else .field :: formatParts fields most cs
  | most + 1, c :: cs => .bytes (charBytes c) :: formatParts fields most cs

/-- The bytes of a format with arguments in its fields, and the arguments that are left. -/
def fillParts : List FormatPart → List String → ByteArray → ByteArray × List String
  | [], arguments, said => (said, arguments)
  | .bytes b :: parts, arguments, said => fillParts parts arguments (said ++ b)
  | .field :: parts, [], said => fillParts parts [] said
  | .field :: parts, a :: arguments, said => fillParts parts arguments (said ++ a.toUTF8)

/-- The bytes of a format that is repeated until no arguments are left, `most` times at most. -/
def fillAll (parts : List FormatPart) : Nat → List String → ByteArray → ByteArray
  | 0, _, said => said
  | most + 1, arguments, said =>
    match fillParts parts arguments said with
    | (said, []) => said
    | (said, arguments) => fillAll parts most arguments said

/-- What `printf` says. -/
def printed (format : String) (arguments : List String) : ByteArray :=
  let parts := formatParts true (format.length + 1) format.toList
  let hasField := parts.any fun
    | .field => true
    | _ => false
  if hasField then fillAll parts (arguments.length + 1) arguments .empty
  else (fillParts parts [] .empty).1

/-- What `echo` says. -/
def echoed (arguments : List String) : ByteArray :=
  let plain (ss : List String) : ByteArray :=
    let text := " ".intercalate ss
    (fillParts (formatParts false (text.length + 1) text.toList) [] .empty).1
  match arguments with
  | "-n" :: rest => plain rest
  | rest => plain rest ++ charBytes '\n'

/-- The comparison of two integers that an operator makes. -/
def comparison? : String → Option (Int → Int → Bool)
  | "-eq" => some fun a b => a = b
  | "-ne" => some fun a b => a ≠ b
  | "-lt" => some fun a b => a < b
  | "-le" => some fun a b => a ≤ b
  | "-gt" => some fun a b => a > b
  | "-ge" => some fun a b => a ≥ b
  | _ => none

/-- Whether a condition holds; nothing when it is none. -/
def condition? (tree : FileTree) : List String → Option Bool
  | [] => some false
  | [s] => some (!s.isEmpty)
  | [operator, s] =>
    let node := (tree.node (Path.ofRawText s)).toOption
    match operator with
    | "-n" => some (!s.isEmpty)
    | "-z" => some s.isEmpty
    | "!" => some s.isEmpty
    | "-e" => some node.isSome
    | "-d" => some (node.any Node.isDirectory)
    | "-f" => some (node.any fun n => !n.isDirectory)
    | _ => none
  | [a, operator, b] =>
    match operator, comparison? operator with
    | "=", _ => some (a = b)
    | "!=", _ => some (a ≠ b)
    | _, some compare => do return compare (← a.toInt?) (← b.toInt?)
    | _, none => none
  | _ => none

/-- The signal of a name or number. -/
def signalOf? (name : String) : Option Nat :=
  match name with
  | "KILL" => some killSignal
  | "TERM" => some endSignal
  | "HUP" => some 1
  | "INT" => some 2
  | _ =>
    if !name.isEmpty && name.toList.all Char.isDigit then some (Decimal.ofDigits name.toList)
    else none

/-- The signal and the receiver that the arguments of `kill` name. -/
def signalTo? : List String → Option (Nat × String)
  | ["-s", name, receiver] => (signalOf? name).map fun n => (n, receiver)
  | [name, receiver] =>
    match name.toList with
    | '-' :: cs => (signalOf? (String.ofList cs)).map fun n => (n, receiver)
    | _ => none
  | [receiver] => some (endSignal, receiver)
  | _ => none

/-- The seconds that a numeral denotes. -/
def seconds? (s : String) : Option Rat :=
  let whole := s.toList.takeWhile Char.isDigit
  let places := match s.toList.drop whole.length with
    | '.' :: digits => some digits
    | [] => some []
    | _ => none
  places.bind fun digits =>
    if (whole ++ digits).isEmpty || !digits.all Char.isDigit then none
    else some (mkRat (Decimal.ofDigits (whole ++ digits)) (Nat.pow 10 digits.length))

/-- What `cat` says of a list of files, and its status. -/
def concatenated (tree : FileTree) (r : Routes) (files : List String) (t : Traffic) :
    Traffic × Nat :=
  files.foldl
    (fun (t, status) file =>
      match tree.read (Path.ofRawText file) with
      | .ok content => (t.say r .output content, status)
      | .error e =>
        (t.say r .errors ("cat: " ++ file ++ ": " ++ e.message ++ "\n").toUTF8, 1))
    (t, 0)

/-- Lets time pass, as far as there is time left. -/
def Traffic.wait (t : Traffic) (span : Rat) : Traffic × Ending :=
  match t.timeLeft with
  | none => (t, .exited 0)
  | some left =>
    if left ≤ span then (t, .late) else ({ t with timeLeft := some (left - span) }, .exited 0)

/-! ## Processes -/

/-- What a command leads to: the next one, or the end of the process. -/
inductive Flow where
  | next
  | ended (ending : Ending)

/-- The session after a command with a status. -/
def Session.finish (s : Session) (status : Nat) : Session × Flow :=
  ({ s with status := status }, .next)

/-- The session after a command that says something. -/
def Session.say (s : Session) (r : Routes) (stream : Stream) (bytes : ByteArray) : Session :=
  { s with traffic := s.traffic.say r stream bytes }

/-- The file of a command name: the name itself when it is a path. -/
def commandFile? (f : Frame) (s : Session) (name : String) : Option String :=
  if name.toList.contains '/' then some name
  else
    let search := (Members.get? s.bindings Host.searchVariable).getD standardSearch
    Host.findProgram (f.host.tree.seenFrom f.here) search name

/-- The variables that a process of a session gets. -/
def childVariables (f : Frame) (s : Session) (assignments : Members String) : Members String :=
  assignments.foldl (fun t a => Members.put t a.1 a.2)
    (s.bindings.filter fun v => v.1 ∈ f.exported)

mutual

/-- Runs commands one after the other. -/
def runAll : Nat → Frame → Routes → List Command → Session → Session × Flow
  | 0, _, _, _, s => (s, .ended (.killed killSignal))
  | _ + 1, _, _, [], s => (s, .next)
  | left + 1, f, r, c :: cs, s =>
    match runOne left f r c s with
    | (s, .next) => runAll left f r cs s
    | ended => ended

/-- Runs a loop over a list of values. -/
def runEach : Nat → Frame → Routes → String → List String → List Command → Session → Session × Flow
  | 0, _, _, _, _, _, s => (s, .ended (.killed killSignal))
  | _ + 1, _, _, _, [], _, s => (s, .next)
  | left + 1, f, r, name, item :: items, body, s =>
    let s := { s with bindings := Members.put s.bindings name item }
    match runAll left f r body s with
    | (s, .next) => runEach left f r name items body s
    | ended => ended

/-- Runs one command. -/
def runOne : Nat → Frame → Routes → Command → Session → Session × Flow
  | 0, _, _, _, s => (s, .ended (.killed killSignal))
  | left + 1, f, r, c, s =>
    match c with
    | .both a b =>
      match runOne left f r a s with
      | (s, .next) => if s.status = 0 then runOne left f r b s else (s, .next)
      | ended => ended
    | .either a b =>
      match runOne left f r a s with
      | (s, .next) => if s.status = 0 then (s, .next) else runOne left f r b s
      | ended => ended
    | .each name items body => runEach left f r name (expandWords f s items) body (s.finish 0).1
    | .loop condition body =>
      match runAll left f r condition s with
      | (s, .next) =>
        if s.status = 0 then
          match runAll left f r body s with
          | (s, .next) => runOne left f r (.loop condition body) s
          | ended => ended
        else s.finish 0
      | ended => ended
    | .choice condition yes no =>
      match runAll left f r condition s with
      | (s, .next) =>
        if s.status = 0 then runAll left f r yes (s.finish 0).1
        else runAll left f r no (s.finish 0).1
      | ended => ended
    | .simple assignments words redirections =>
      let values := assignments.map fun a => (a.1, expandValue f s a.2)
      let r := redirections.foldl Routes.join r
      match expandWords f s words with
      | [] =>
        let bindings := values.foldl (fun t a => Members.put t a.1 a.2) s.bindings
        ({ s with bindings := bindings, status := 0 }, .next)
      | name :: arguments => runNamed left f r values name arguments s

/-- Runs a command by its name: one of the shell's own, or a program. -/
def runNamed : Nat → Frame → Routes → Members String → String → List String → Session →
    Session × Flow
  | 0, _, _, _, _, _, s => (s, .ended (.killed killSignal))
  | left + 1, f, r, values, name, arguments, s =>
    let judge (condition : Option Bool) : Session × Flow :=
      match condition with
      | some true => s.finish 0
      | some false => s.finish 1
      | none => s.finish misuseStatus
    let tree := f.host.tree.seenFrom f.here
    match name, arguments with
    | ":", _ => s.finish 0
    | "true", _ => s.finish 0
    | "false", _ => s.finish 1
    | "echo", arguments => (s.say r .output (echoed arguments)).finish 0
    | "printf", format :: arguments => (s.say r .output (printed format arguments)).finish 0
    | "test", arguments => judge (condition? tree arguments)
    | "[", arguments =>
      judge (if arguments.getLast? = some "]" then condition? tree arguments.dropLast else none)
    | "exit", [] => (s, .ended (.exited s.status))
    | "exit", status :: _ =>
      let status := (status.toNat?.map (· % 256)).getD misuseStatus
      (s, .ended (.exited status))
    | "kill", arguments =>
      match signalTo? arguments with
      | some (signal, receiver) =>
        if receiver = toString f.processId then (s, .ended (.killed signal)) else s.finish 1
      | none => s.finish misuseStatus
    | "exec", [] => s.finish 0
    | "exec", name :: arguments =>
      match runFile left f r values name arguments s with
      | (s, ending) => (s, .ended ending)
    | name, arguments =>
      match runFile left f r values name arguments s with
      | (s, .exited status) => s.finish status
      | (s, .killed signal) => s.finish (128 + signal)
      | (s, .late) => (s, .ended .late)

/-- Runs the program of a command name in a process of its own. -/
def runFile : Nat → Frame → Routes → Members String → String → List String → Session →
    Session × Ending
  | 0, _, _, _, _, _, s => (s, .killed killSignal)
  | left + 1, f, r, values, name, arguments, s =>
    let complain (why : String) (status : Nat) : Session × Ending :=
      (s.say r .errors (f.name ++ ": 1: " ++ name ++ ": " ++ why ++ "\n").toUTF8, .exited status)
    let run (program : Program) (arguments : List String) : Session × Ending :=
      match runProgram left f.host f.here (childVariables f s values) (f.processId + 1) r program
        arguments s.traffic with
      | (traffic, ending) => ({ s with traffic := traffic }, ending)
    match commandFile? f s name with
    | none => complain "not found" notFoundStatus
    | some file =>
      match f.host.start f.here file arguments with
      | .ok (program, arguments) => run program arguments
      | .error .badFormat => run .shell (file :: arguments)
      | .error (.file .missing) => complain "not found" notFoundStatus
      | .error e => complain e.message (notFoundStatus - 1)

/-- Runs a program with arguments in a directory. -/
def runProgram : Nat → Host → List String → Members String → Nat → Routes → Program →
    List String → Traffic → Traffic × Ending
  | 0, _, _, _, _, _, _, _, t => (t, .killed killSignal)
  | left + 1, host, here, environment, processId, r, program, arguments, t =>
    let tree := host.tree.seenFrom here
    let script (text name : String) (arguments : List String) : Traffic × Ending :=
      match read? text with
      | none =>
        (t.say r .errors (name ++ ": 1: Syntax error\n").toUTF8, .exited misuseStatus)
      | some commands =>
        let frame : Frame := ⟨host, here, processId, name, arguments, environment.map Prod.fst⟩
        match runAll left frame r commands ⟨environment, 0, t⟩ with
        | (s, .next) => (s.traffic, .exited s.status)
        | (s, .ended ending) => (s.traffic, ending)
    match program, arguments with
    | .cat, files =>
      let (t, status) := concatenated tree r (files.filter (· ≠ "-")) t
      (t, .exited status)
    | .sleep, [span] =>
      match seconds? span with
      | some span => t.wait span
      | none => (t, .exited 1)
    | .sleep, _ => (t, .exited 1)
    | .shell, [] => (t, .exited 0)
    | .shell, ["-c"] => (t, .exited misuseStatus)
    | .shell, ["-c", text] => script text "sh" []
    | .shell, "-c" :: text :: name :: arguments => script text name arguments
    | .shell, file :: arguments =>
      match tree.read (Path.ofRawText file) with
      | .ok content => script (Text.decodeLossy content) file arguments
      | .error _ =>
        (t.say r .errors ("sh: 0: cannot open " ++ file ++ ": No such file\n").toUTF8,
          .exited misuseStatus)

end

/-- How many steps may lead to one command. -/
def maxSteps : Nat := 100000

end LintGateway.Shell
