import Stubwright.Host
import Stubwright.Shell.Execution

namespace Stubwright.Shell

open Disk Text Toolchain

def mostSteps : Nat := Nat.pow 10 12

def written (channel : Channel) : List UInt8 :=
  match channel with
  | .stream content _ => content.toList
  | _ => []

def runInvocation (invocation : Invocation) (world : World) : ProgramResult × World :=
  let start : Machine :=
    { world
      channels := #[.nothing, .stream #[] 0, .stream #[] 0]
      processes := 1000
      signals := []
      process := .fresh world 1000 [] [(0, 0), (1, 1), (2, 2)] }
  let (ending, machine) := (launch mostSteps invocation).run.run start
  let exitStatus := match ending with
    | .ok status => some status
    | .error _ => none
  (⟨exitStatus, written (machine.channels.getD 1 .nothing),
      written (machine.channels.getD 2 .nothing)⟩,
    { world with tree := machine.world.tree })

def zeroInArgument : Fault := .described false "nul byte found in provided data"

def runProgram : Runner := fun program arguments => do
  let world ← get
  if (program :: arguments).any (·.toList.contains '\x00') then throw zeroInArgument
  let searchPath := (world.environmentValue? "PATH").getD defaultPath
  let words := (program :: arguments).map octets
  match firstInvocation world (fun _ => none) words false (candidates searchPath program) with
  | .error fault => throw fault
  | .ok invocation =>
      let (result, after) := runInvocation invocation world
      set after
      pure result

/-- Runs scripts as they stand on the disk. -/
def host : Host where
  runner := runProgram
  names := .numbered
  deflater := .literal

end Stubwright.Shell
