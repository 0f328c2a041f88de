import LintGateway.Command.Lookup
import LintGateway.Log
import LintGateway.Refusal
import LintGateway.Shell.Run

/-!
# Running a command

A command is started in a directory with an environment and ends with a status and what it said on
its two output streams. A command that does not end in the time it is given is stopped, which is an
error.
-/

set_option autoImplicit false

namespace LintGateway

/-- What a command that has ended leaves. -/
structure ProcessResult where
  command : List String
  status : Int
  stdout : ByteArray
  stderr : String

/-- Whether a command has ended as it should. -/
def ProcessResult.isOk (r : ProcessResult) : Bool := r.status = 0

/-- Why a command gives no result. It may have been refused, or given more time than can be waited
for. -/
inductive CommandError where
  | refused (refusal : Refusal)
  | endlessWait
  | launch (error : LaunchError)
  | execution (error : ExecutionError)

/-- How commands are run: with a time limit in seconds, and in an environment other than that of the
host. -/
structure CommandRunner where
  timeout : Option Float
  environment : Option (Members String)

namespace CommandRunner

/-- The status that stands for a command that was stopped. -/
def timeoutStatus : Int := 124

/-- How commands are run, unless the time limit is negative. -/
def make (timeout : Option Float) (environment : Option (Members String)) :
    Except Refusal CommandRunner :=
  if timeout.any (· < 0.0) then .error .negativeTimeout else .ok ⟨timeout, environment⟩

/-- The exact time limit, if there is a finite one. -/
def timeLimit (runner : CommandRunner) : Option Rat :=
  runner.timeout.bind fun x =>
    match Decimal.Magnitude.ofFloat x with
    | .finite b => some b.toRat
    | _ => none

/-- How many milliseconds can be waited for. -/
def maxWait : Nat := 2147483647

/-- Why the end of a command that was started cannot be waited for: the time limit is undefined, or
too long. -/
def waitError? (runner : CommandRunner) : Option CommandError :=
  runner.timeout.bind fun x =>
    match Decimal.Magnitude.ofFloat x with
    | .finite b => if (maxWait : Rat) < 1000 * b.toRat then some .endlessWait else none
    | .infinite _ => some .endlessWait
    | .notANumber => some (.refused .undefinedTimeout)

/-- The environment of the commands: the one named, else that of the host. -/
def environmentOn (runner : CommandRunner) (host : Host) : Members String :=
  runner.environment.getD host.environment

/-- The place of the directory in which a command starts. -/
def directoryPlace (tree : FileTree) (directory : Path) : Except FileError (List String) :=
  match tree.locate directory false with
  | .error e => .error e
  | .ok place =>
    match tree.root.get? place with
    | some (.directory _) => .ok place
    | _ => .error .notDirectory

/-- The files that are tried in order to start a program: one without a directory in its name is
looked for in the environment of the command. -/
def candidates (environment : Members String) (file : String) : List String :=
  if file.toList.contains '/' then [file]
  else
    let search := (Members.get? environment Host.searchVariable).getD Command.standardSearch
    (Text.split ':' search).map fun directory => Host.fileIn directory file

/-- Whether a reason not to start a file only says that there is none. -/
def saysAbsent : StartError → Bool
  | .file .missing => true
  | .file .notDirectory => true
  | _ => false

/-- Starts the first file of a list that can be started. Otherwise the reason is the first one that
says more than that a file is absent, and the last one if there is no such. -/
def startFirst (host : Host) (here : List String) (arguments : List String)
    (known : Option StartError) :
    List String → Except StartError (Program × List String)
  | [] => .error (known.getD (.file .missing))
  | file :: files =>
    match host.start here file arguments with
    | .ok r => .ok r
    | .error e =>
      let known := match known with
        | some k => if saysAbsent k then some e else some k
        | none => some e
      startFirst host here arguments known files

/-- Why the system cannot be asked to start a command: a name in the environment given holds an
equals sign, or a null character stands somewhere. -/
def refusal? (runner : CommandRunner) (command : List String) (directory : Path) :
    Option Refusal :=
  let given := runner.environment.getD []
  let texts := command ++ given.flatMap fun v => [v.1, v.2]
  if given.any fun v => v.1.toList.contains '=' then some .variableName
  else if directory.holdsNull || texts.any fun s => s.toList.contains '\x00' then
    some .nullCharacter
  else none

/-- The line that tells which command is running. -/
def runningLine (command : List String) (directory : Path) : LogLine :=
  { level := .debug
    channel := .process
    text := "running " ++ " ".intercalate command ++ " in " ++ directory.toText }

/-- The error of a command that was stopped. -/
def stopped (runner : CommandRunner) (command : List String) (stderr : String) : ExecutionError :=
  { command := command
    status := timeoutStatus
    stderr := some stderr
    detail := some ("timed out after " ++ Decimal.fixedText 1 (runner.timeout.getD 0.0) ++ "s")
    cause := some .timeout }

/-- Starts a command whose first argument is a file, and waits for its end. -/
def execute (runner : CommandRunner) (host : Host) (file : String) (arguments : List String)
    (directory : Path) : Except StartError (Shell.Traffic × Shell.Ending) := do
  let environment := runner.environmentOn host
  let here ← (directoryPlace host.tree directory).mapError .file
  let (program, arguments) ← startFirst host here arguments none (candidates environment file)
  match Shell.Traffic.wait { timeLeft := runner.timeLimit } 0 with
  | (traffic, .exited _) =>
    return Shell.runProgram Shell.maxSteps host here environment 1 {} program arguments traffic
  | stopped => return stopped

/-- Runs a command in a directory. -/
def run (runner : CommandRunner) (host : Host) (command : List String) (directory : Path) :
    Logged (Except CommandError ProcessResult) :=
  let search := Members.get? (runner.environmentOn host) Host.searchVariable
  match Command.locate host command directory search with
  | .error e => pure (.error (.launch e))
  | .ok [] => pure (.error (.launch ⟨command, ""⟩))
  | .ok (file :: arguments) => do
    Logged.say (runningLine command directory)
    match runner.refusal? (file :: arguments) directory with
    | some refusal => return .error (.refused refusal)
    | none =>
      match runner.execute host file arguments directory, runner.waitError? with
      | .error e, _ => return .error (.launch ⟨command, e.message⟩)
      | .ok _, some e => return .error e
      | .ok (traffic, ending), none =>
        let stderr := Text.decodeLossy traffic.errors
        let result (status : Int) : ProcessResult := ⟨command, status, traffic.output, stderr⟩
        match ending with
        | .exited status => return .ok (result status)
        | .killed signal => return .ok (result (-signal))
        | .late => return .error (.execution (runner.stopped command stderr))

end CommandRunner

end LintGateway
