import LintGateway.Command.Failure
import LintGateway.Host.Basic

/-!
# Looking up the linter

The first argument of a command names the file to start. A path stays as it is, or starts at the
directory of the run when it is relative; a bare name is looked up in the directories of a search
list.
-/

set_option autoImplicit false

namespace LintGateway.Command

/-- The directories that are searched when no environment says which. -/
def standardSearch : String := "/bin:/usr/bin"

/-- The file of a bare name: in the given search list, or in that of the host when none is given. -/
def findProgram (host : Host) (searchList : Option String) (name : String) : Option String :=
  let own := Members.get? host.environment Host.searchVariable
  Host.findProgram host.tree (searchList.getD (own.getD standardSearch)) name

/-- A command with the file to start in the place of its first argument. -/
def locate (host : Host) (command : List String) (directory : Path) (searchList : Option String) :
    Except LaunchError (List String) :=
  match command with
  | [] => .error ⟨[], "command requires at least one argument"⟩
  | name :: arguments =>
    let p := Path.ofText name
    if p.isAbsolute then .ok (p.toText :: arguments)
    else if name.toList.contains '/' then .ok ((directory.join p).toText :: arguments)
    else
      match findProgram host searchList name with
      | some file => .ok (file :: arguments)
      | none => .error ⟨command, "executable '" ++ name ++ "' was not found on PATH"⟩

end LintGateway.Command
