import Stubwright.Failure
import Stubwright.Text.Blank

namespace Stubwright

open Text

structure GenerateArguments where
  archive : Bool := false
  typeName : String
  archivePath : Option String := none
  output : Option String := none
  /-- Each text may hold several entries. -/
  classPath : List String := []
  catalogs : List String := []
  withoutKit : Bool := false
  config : Option String := none
  logLevel : Option String := none
deriving DecidableEq, Repr

inductive Destination where
  | directory (path : String)
  | archive (path : String)
deriving DecidableEq, Repr

/-- An archive goes with its path and a path with its archive; sources go to the working directory
unless another one is named. -/
def GenerateArguments.destination (arguments : GenerateArguments) : Except Failure Destination :=
  if (trimmed arguments.typeName).isEmpty then .error (.invalidArgument .emptyTypeName)
  else
    match arguments.archive, arguments.archivePath with
    | true, some path => .ok (.archive path)
    | true, none => .error (.invalidArgument .archivePathMissing)
    | false, some path => .error (.invalidArgument (.strayArchivePath path))
    | false, none => .ok (.directory (arguments.output.getD "."))

inductive Invocation where
  | generate (arguments : GenerateArguments)
  | version
  /-- No command is named. -/
  | nothing
deriving DecidableEq, Repr

/-- Why a command line is not an invocation. The first two answer a question of the user. -/
inductive UsageFault where
  | help
  | programVersion
  | unknownArgument
  | unknownCommand
  | missingArgument
  | conflict
  | badValue
  | surplusValue
deriving DecidableEq, Repr

def UsageFault.isAnswer : UsageFault → Bool
  | help | programVersion => true
  | _ => false

def UsageFault.exitCode (fault : UsageFault) : Nat :=
  if fault.isAnswer then 0 else 2

end Stubwright
