import Stubwright.Shell.Builtin.Directory
import Stubwright.Shell.Builtin.Input
import Stubwright.Shell.Builtin.Signals
import Stubwright.Shell.Builtin.Switches
import Stubwright.Shell.Condition
import Stubwright.Shell.Printing

namespace Stubwright.Shell

open Disk Text

def shift (arguments : List Value) : Running Nat := do
  let count ←
    match arguments.head? with
    | some count => wholeNumber count
    | none => pure 1
  if count > (← process).arguments.length then fail (octets "can't shift that many")
  changeProcess fun process =>
    { process with
      arguments := process.arguments.drop count
      optionIndex := 1
      optionPlace := none }
  pure 0

def leaveLoops (ending : Nat → Ending) (arguments : List Value) : Running Nat := do
  let levels ←
    match arguments.head? with
    | some levels => wholeNumber levels
    | none => pure 1
  if levels = 0 then fail (octets "Illegal number: " ++ arguments.headD [])
  let levels := min levels (← process).loops
  if levels > 0 then throw (ending levels)
  pure 0

def leaveScript (arguments : List Value) : Running Nat := do
  match arguments.head? with
  | some status => throw (.exited (some (← wholeNumber status)))
  | none => throw (.exited none)

def leaveFunction (arguments : List Value) : Running Nat := do
  match arguments.head? with
  | some status => throw (.returned (← wholeNumber status))
  | none => throw (.returned (← process).status)

def test (isBracket : Bool) (arguments : List Value) : Running Nat := do
  if isBracket && (arguments.getLastD []).head? != some ']' then fail (octets "missing ]")
  match holds (← get).world (if isBracket then arguments.dropLast else arguments) with
  | .ok result => pure (if result then 0 else 1)
  | .error complaint => fail complaint

def printFormatted (arguments : List Value) : Running Nat := do
  let (_, arguments) ← letters "" arguments
  match arguments with
  | [] => fail (octets "usage: printf format [arg ...]")
  | format :: arguments =>
      let printout := printed format arguments
      printout.complaints.forM warn
      match printout.fault with
      | some fault =>
          let _ ← say printout.text
          fail fault
      | none =>
          let status ← say printout.text
          pure (if printout.complaints.isEmpty then status else 1)

def rightsLeft (digit : Nat) : String :=
  String.ofList ([('r', 4), ('w', 2), ('x', 1)].filterMap fun (letter, bit) =>
    if digit / bit % 2 = 0 then some letter else none)

def maskAfter (mask : Nat) (clause : Value) : Option Nat :=
  let users := clause.takeWhile "ugoa".toList.contains
  let isEveryone := users.isEmpty || users.contains 'a'
  let places := [('u', 64), ('g', 8), ('o', 1)]
  let classes := places.filter fun (user, _) => isEveryone || users.contains user
  let bits (rights : Value) : List Nat :=
    [('r', 4), ('w', 2), ('x', 1), ('X', 1)].filterMap fun (letter, bit) =>
      if rights.contains letter then some bit else none
  let withBits (mask : Nat) (isMasked : Bool) (bits : List Nat) : Nat :=
    classes.foldl (fun mask (_, place) => bits.foldl (fun mask bit =>
      let bit := bit * place
      if (mask / bit % 2 = 1) = isMasked then mask
      else if isMasked then mask + bit else mask - bit) mask) mask
  let rec changes : (steps : Nat) → Nat → Value → Option Nat
    | 0, _, _ => none
    | _ + 1, mask, [] => some mask
    | steps + 1, mask, sign :: rest =>
        let (rights, behind) := match places.lookup (rest.headD ' ') with
          | some place => ([4, 2, 1].filter fun bit => mask / (bit * place) % 2 = 0, rest.drop 1)
          | none =>
              let letters := rest.takeWhile "rwxXs".toList.contains
              (bits letters, rest.drop letters.length)
        let mask? := match sign with
          | '+' => some (withBits mask false rights)
          | '-' => some (withBits mask true rights)
          | '=' => some (withBits (withBits mask true [4, 2, 1]) false rights)
          | _ => none
        mask?.bind fun mask => changes steps mask behind
  let actions := clause.drop users.length
  if actions.isEmpty then none else changes (actions.length + 1) mask actions

def fileMask (arguments : List Value) : Running Nat := do
  let (options, arguments) ← letters "S" arguments
  let mask := (← process).mask
  match arguments with
  | [] =>
      let digits := [mask / 64 % 8, mask / 8 % 8, mask % 8]
      if options.isEmpty then say (octets ("0" ++ String.join (digits.map toString) ++ "\n"))
      else
        let classes :=
          ["u=", "g=", "o="].zipWith (fun name digit => name ++ rightsLeft digit) digits
        say (octets (",".intercalate classes ++ "\n"))
  | argument :: _ =>
      if !argument.isEmpty && argument.all isOctal then
        let mask := argument.foldl (fun total c => total * 8 + (c.toNat - '0'.toNat)) 0
        changeProcess fun process => { process with mask := mask % 512 }
        pure 0
      else if argument.head?.any Char.isDigit then fail (octets "Illegal number: " ++ argument)
      else
        let clauses := cut ',' argument
        let clauses := if clauses.getLast? = some [] then clauses.dropLast else clauses
        match clauses.foldlM maskAfter mask with
        | some mask =>
            changeProcess fun process => { process with mask }
            pure 0
        | none => fail (octets "Illegal mode: " ++ argument)

def nameTexts (arguments : List Value) : Running Nat := do
  let aliases := (← process).aliases
  let shown (entry : String × Value) : Value :=
    octets (entry.1 ++ "=") ++ quoted entry.2 ++ ['\n']
  if arguments.isEmpty then return ← say (aliases.flatMap shown)
  let statuses ← arguments.mapM fun argument => do
    match if argument.head? = some '=' then none else binding? argument with
    | some (name, text) =>
        changeProcess fun process =>
          let others := process.aliases.filter (·.1 != name)
          { process with aliases := others ++ [(name, text)] }
        pure 0
    | none =>
        match aliases.find? (octets ·.1 = argument) with
        | some entry => say (shown entry)
        | none =>
            let _ ← print 2 (octets "alias: " ++ argument ++ octets " not found\n")
            pure 1
  pure (if statuses.all (· = 0) then 0 else 1)

def forgetNames (arguments : List Value) : Running Nat := do
  let (options, names) ← letters "a" arguments
  if !options.isEmpty then
    changeProcess fun process => { process with aliases := [] }
    return 0
  let statuses ← names.mapM fun name => do
    let aliases := (← process).aliases
    let kept := aliases.filter fun entry => octets entry.1 != name
    changeProcess fun process => { process with aliases := kept }
    if kept.length < aliases.length then pure 0
    else
      let _ ← print 2 (octets "unalias: " ++ name ++ octets " not found\n")
      pure 1
  pure (if statuses.all (· = 0) then 0 else 1)

def builtin? : String → Option (List Value → Running Nat)
  | ":" | "true" => some fun _ => pure 0
  | "false" => some fun _ => pure 1
  | "echo" => some fun arguments => say (echoed arguments)
  | "printf" => some printFormatted
  | "test" => some (test false)
  | "[" => some (test true)
  | "cd" | "chdir" => some changeDirectory
  | "pwd" => some workingDirectory
  | "read" => some readLine
  | "shift" => some shift
  | "set" => some setOptions
  | "unset" => some unset
  | "export" => some (marking "export" ({ · with isExported := true }) (·.isExported))
  | "readonly" => some (marking "readonly" ({ · with isReadOnly := true }) (·.isReadOnly))
  | "local" => some localVariables
  | "break" => some (leaveLoops .broken)
  | "continue" => some (leaveLoops .continued)
  | "exit" => some leaveScript
  | "return" => some leaveFunction
  | "trap" => some trap
  | "kill" => some killProcesses
  | "wait" => some waitFor
  | "getopts" => some takeOption
  | "umask" => some fileMask
  | "ulimit" => some fun _ => say (octets "unlimited\n")
  | "times" => some fun _ => say (octets "0m0.000000s 0m0.000000s\n0m0.000000s 0m0.000000s\n")
  | "jobs" => some fun _ => pure 0
  | "fg" | "bg" => some fun _ => fail (octets "No current job")
  | "alias" => some nameTexts
  | "unalias" => some forgetNames
  | _ => none

def isBuiltin (name : String) : Bool :=
  (builtin? name).isSome || [".", "eval", "exec", "command", "type", "hash"].contains name

def takesAssignments (name : String) : Bool :=
  ["export", "readonly", "local"].contains name

end Stubwright.Shell
