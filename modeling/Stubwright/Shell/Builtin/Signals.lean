import Stubwright.Shell.Builtin.Arguments
import Stubwright.Shell.Signal

namespace Stubwright.Shell

open Disk Text

def trap (arguments : List Value) : Running Nat := do
  let (_, arguments) ← letters "" arguments
  match arguments with
  | [] =>
      let traps := (← process).traps.mergeSort fun a b => decide (a.1 ≤ b.1)
      say (traps.flatMap fun (signal, action) =>
        octets "trap -- " ++ quoted action ++ octets (" " ++ Signal.nameOf signal ++ "\n"))
  | first :: others =>
      let isReset := others.isEmpty || (!first.isEmpty && first.all Char.isDigit)
      let (action, signals) := if isReset then (['-'], arguments) else (first, others)
      for signal in signals do
        match Signal.ofText? (Octets.toText signal) with
        | none =>
            let _ ← print 2 (octets "trap: " ++ signal ++ octets ": bad trap\n")
            return 1
        | some number =>
            changeProcess fun process =>
              let others := process.traps.filter (·.1 != number)
              let traps := if action = ['-'] then others else (number, action) :: others
              { process with traps }
      pure 0

def sendSignal (signal : Nat) (target : Value) : Running Nat := do
  let number ← wholeNumber (if target.head? = some '-' then target.drop 1 else target)
  let process ← process
  if number = process.number then
    if signal > 0 then modify fun machine => { machine with signals := machine.signals ++ [signal] }
    pure 0
  else if process.unreaped.contains number then pure 0
  else
    warn (octets "No such process\n")
    pure 1

def killUsage : String :=
  "Usage: kill [-s sigspec | -signum | -sigspec] [pid | job]... or\nkill -l [exitstatus]"

def listSignals (arguments : List Value) : Running Nat := do
  match arguments.head? with
  | none =>
      say (((List.range Signal.count).drop 1).flatMap fun number =>
        octets (Signal.nameOf number ++ "\n"))
  | some argument =>
      let number ← wholeNumber argument
      let number := if number > 128 then number - 128 else number
      if 0 < number && number < Signal.count then say (octets (Signal.nameOf number ++ "\n"))
      else fail (octets "invalid signal number or exit status: " ++ argument)

def killProcesses (arguments : List Value) : Running Nat := do
  let named? (argument : Value) : Option Nat :=
    match argument with
    | '-' :: name => (Signal.ofText? (Octets.toText name)).filter fun number =>
        number > 0 || name.all Char.isDigit
    | _ => none
  let (signal, targets) ←
    match arguments with
    | [] => fail (octets killUsage)
    | first :: others =>
        match named? first with
        | some signal => pure (some signal, others)
        | none =>
            let steps := (arguments.map (·.length + 1)).foldl (· + ·) 1
            let (options, others) ← optionsOf ['l'] ['s'] steps arguments
            match options.find? (·.1 = 's') with
            | some (_, name) =>
                match Signal.ofText? (Octets.toText name) with
                | some signal => pure (some signal, others)
                | none => fail (octets "invalid signal number or name: " ++ name)
            | none =>
                pure (if options.isEmpty then some Signal.terminate else none, others)
  match signal with
  | none => listSignals targets
  | some signal =>
      if targets.isEmpty then fail (octets killUsage)
      let statuses ← targets.mapM (sendSignal signal)
      pure (if statuses.all (· = 0) then 0 else 1)

def waitFor (arguments : List Value) : Running Nat := do
  let (_, targets) ← letters "" arguments
  if targets.isEmpty then
    changeProcess fun process => { process with unreaped := [] }
    pure 0
  else
    targets.foldlM (fun _ target => do
      let number ← wholeNumber target
      let status := ((← process).ended.lookup number).getD 127
      changeProcess fun process =>
        { process with unreaped := process.unreaped.filter (· != number) }
      pure status) 0

end Stubwright.Shell
