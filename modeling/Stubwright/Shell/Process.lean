import Stubwright.Disk.Action
import Stubwright.Shell.Grammar
import Stubwright.Shell.Number
import Stubwright.Text.Octets

/-!
What a running script knows and changes. Values are octets. What is open is shared by all processes
of a run, while variables, functions, arguments and descriptors belong to one of them.
-/
namespace Stubwright.Shell

open Disk Text

abbrev Value := List Char

structure Variable where
  /-- Nothing for a variable that only has marks. -/
  value : Option Value
  isExported : Bool
  isReadOnly : Bool

inductive Channel where
  | nothing
  /-- What is written can be read in the same order, from a position on. -/
  | stream (content : Array UInt8) (position : Nat)
  | file (place : Place) (position : Nat) (appends canRead canWrite : Bool)

structure Options where
  exportsAll : Bool
  stopsAtFailure : Bool
  keepsPatterns : Bool
  runsNothing : Bool
  refusesUnset : Bool
  showsLines : Bool
  showsCommands : Bool
  keepsFiles : Bool

def Options.allOff : Options :=
  ⟨false, false, false, false, false, false, false, false⟩

structure Process where
  name : Value
  number : Nat
  /-- Whether the process was split off another one that reads the same script. -/
  isSubshell : Bool
  arguments : List Value
  assigned : List (String × Variable)
  functions : List (String × Command)
  aliases : List (String × Value)
  descriptors : List (Nat × Nat)
  options : Options
  traps : List (Nat × Value)
  known : List String
  /-- The rights that new files do not get. -/
  mask : Nat
  directory : Value
  /-- The line of the command that runs, and the one that reading has come to. -/
  line : Nat
  lastLine : Nat
  culprit : Option Value
  status : Nat
  /-- How the last command ended whose output was taken into a word. -/
  outputStatus : Nat
  loops : Nat
  callDepth : Nat
  /-- The values that variables had before a function made them its own. -/
  hidden : List (String × Option Variable)
  lastBackground : Option Nat
  /-- How processes in the background ended, and which of them nobody has waited for. -/
  ended : List (Nat × Nat)
  unreaped : List Nat
  /-- The argument, counted from one, and the place in it where the reading of options goes on. -/
  optionIndex : Nat
  optionPlace : Option Nat

structure Machine where
  world : World
  channels : Array Channel
  processes : Nat
  /-- Signals that have come and still have to be attended to. -/
  signals : List Nat
  process : Process

inductive Ending where
  /-- With a status of its own or that of the last command. -/
  | exited (status : Option Nat)
  | returned (status : Nat)
  | broken (levels : Nat)
  | continued (levels : Nat)
  /-- A complaint that a process does not survive, unless a command of its own made it. -/
  | failed
  | killed (signal : Nat)
  /-- More steps than a run may take. -/
  | exhausted
deriving DecidableEq, Repr

abbrev Running (α : Type) := ExceptT Ending (StateM Machine) α

def octets (text : String) : Value := Octets.ofString text

def process : Running Process := do
  pure (← get).process

def changeProcess (change : Process → Process) : Running Unit :=
  modify fun machine => { machine with process := change machine.process }

namespace Process

def stored? (process : Process) (name : String) : Option Variable :=
  process.assigned.lookup name

def value? (process : Process) (name : String) : Option Value :=
  (process.stored? name).bind (·.value)

def setVariable (process : Process) (name : String) (entry : Variable) : Process :=
  { process with
    assigned :=
      if process.assigned.any (·.1 = name) then
        process.assigned.map fun other => if other.1 = name then (name, entry) else other
      else process.assigned ++ [(name, entry)] }

def dropVariable (process : Process) (name : String) : Process :=
  { process with assigned := process.assigned.filter (·.1 != name) }

def separators (process : Process) : Value :=
  (process.value? "IFS").getD [' ', '\t', '\n']

def compartment (name : String) : Nat :=
  let codes := (octets name).map (·.toNat)
  (codes.headD 0 * 16 + codes.foldl (· + ·) 0) % 39

def exported (process : Process) : List (String × String) :=
  let entries := process.assigned.filterMap fun (name, entry) =>
    match entry.value with
    | some value => if entry.isExported then some (name, Octets.toText value) else none
    | none => none
  entries.mergeSort fun a b => compartment a.1 ≤ compartment b.1

end Process

def Process.remember (process : Process) (name : String) : Process :=
  if name.toList.contains '/' || process.known.contains name then process
  else { process with known := name :: process.known }

def descriptorAt? (path : String) : Option Nat :=
  match path with
  | "/dev/stdin" => some 0
  | "/dev/stdout" => some 1
  | "/dev/stderr" => some 2
  | _ =>
      let front := "/dev/fd/".toList
      if front.isPrefixOf path.toList then
        let rest := path.toList.drop front.length
        if isNumber rest then (String.ofList rest).toNat? else none
      else none
where
  isNumber (text : List Char) : Bool := !text.isEmpty && text.all Char.isDigit

def channelOf? (descriptor : Nat) : Running (Option Nat) := do
  pure ((← process).descriptors.lookup descriptor)

def openChannel (channel : Channel) : Running Nat := do
  let number := (← get).channels.size
  modify fun machine => { machine with channels := machine.channels.push channel }
  pure number

def setDescriptor (descriptor : Nat) (channel : Option Nat) : Running Unit :=
  changeProcess fun process =>
    let others := process.descriptors.filter (·.1 != descriptor)
    { process with
      descriptors := match channel with
        | some channel => (descriptor, channel) :: others
        | none => others }

/-- The content of a file with some bytes at a position, zeros filling a gap. -/
def overwritten (content : List UInt8) (position : Nat) (bytes : List UInt8) : List UInt8 :=
  let front := content.take position
  front ++ List.replicate (position - front.length) 0 ++ bytes
    ++ content.drop (position + bytes.length)

def Channel.write (bytes : List UInt8) (world : World) : Channel → Option (Channel × World)
  | .nothing => some (.nothing, world)
  | .stream content position => some (.stream (content ++ bytes.toArray) position, world)
  | .file place position appends canRead true =>
      match world.tree.node? place with
      | some (.file content isExecutable) =>
          let start := if appends then content.length else position
          let node := Node.file (overwritten content start bytes) isExecutable
          some (.file place (start + bytes.length) appends canRead true,
            { world with tree := world.tree.put place node })
      | _ => some (.file place position appends canRead true, world)
  | .file _ _ _ _ false => none

def Channel.rest (world : World) : Channel → Option (List UInt8)
  | .nothing => some []
  | .stream content position => some (content.toList.drop position)
  | .file place position _ true _ =>
      match world.tree.node? place with
      | some (.file content _) => some (content.drop position)
      | _ => some []
  | .file _ _ _ false _ => none

def Channel.advance (count : Nat) : Channel → Channel
  | .nothing => .nothing
  | .stream content position => .stream content (position + count)
  | .file place position appends canRead canWrite =>
      .file place (position + count) appends canRead canWrite

def writeTo (number : Nat) (bytes : List UInt8) : Running Bool := do
  let machine ← get
  match (machine.channels.getD number .nothing).write bytes machine.world with
  | none => pure false
  | some (channel, world) =>
      set { machine with world, channels := machine.channels.setIfInBounds number channel }
      pure true

def writeBytes (descriptor : Nat) (bytes : List UInt8) : Running Bool := do
  match ← channelOf? descriptor with
  | none => pure false
  | some number => writeTo number bytes

def print (descriptor : Nat) (text : Value) : Running Bool :=
  writeBytes descriptor (Octets.toBytes text)

def unread (descriptor : Nat) : Running (Option (List UInt8)) := do
  let machine ← get
  match machine.process.descriptors.lookup descriptor with
  | none => pure none
  | some number => pure ((machine.channels.getD number .nothing).rest machine.world)

def advance (descriptor count : Nat) : Running Unit := do
  let machine ← get
  match machine.process.descriptors.lookup descriptor with
  | none => pure ()
  | some number =>
      let channel := (machine.channels.getD number .nothing).advance count
      set { machine with channels := machine.channels.setIfInBounds number channel }

def readAll (descriptor : Nat) : Running (Option (List UInt8)) := do
  match ← unread descriptor with
  | none => pure none
  | some bytes =>
      advance descriptor bytes.length
      pure (some bytes)

def warn (message : Value) : Running Unit := do
  let process ← process
  let culprit := match process.culprit with
    | some culprit => culprit ++ octets ": "
    | none => []
  let _ ← print 2 (process.name ++ octets s!": {process.line}: " ++ culprit ++ message ++ ['\n'])

def fail (message : Value) : Running α := do
  warn message
  throw .failed

def wholeNumber (text : Value) : Running Nat := do
  match wholeNumber? text with
  | some number =>
      if 0 ≤ number && number ≤ greatestCount then pure number.toNat
      else fail (octets "Illegal number: " ++ text)
  | none => fail (octets "Illegal number: " ++ text)

def assign (name : String) (value : Value) : Running Unit := do
  let process ← process
  let old := (process.stored? name).getD ⟨none, false, false⟩
  if old.isReadOnly then fail (octets (name ++ ": is read only"))
  let isExported := old.isExported || process.options.exportsAll
  changeProcess fun process => process.setVariable name ⟨some value, isExported, false⟩
  if name = "PATH" then changeProcess fun process => { process with known := [] }
  if name = "OPTIND" then
    let index ← wholeNumber value
    changeProcess fun process => { process with optionIndex := max index 1, optionPlace := none }

def attempt (running : Running α) : Running (Except Ending α) := fun machine =>
  let (result, after) := running.run machine
  (.ok result, after)

/-- Runs something and puts some of what it changed back afterwards, whatever has come of it. -/
def putBack (back : (before after : Process) → Process) (running : Running α) : Running α := do
  let before ← process
  let result ← attempt running
  changeProcess (back before)
  match result with
  | .ok value => pure value
  | .error ending => throw ending

/-- A process with the same state, whose changes are forgotten. What it wrote stays. -/
def apart (running : Running α) : Running (Except Ending α) := fun machine =>
  let (result, after) := running.run machine
  (.ok result,
    { after with
      process := machine.process
      world.workingDirectory := machine.world.workingDirectory
      world.environment := machine.world.environment })

end Stubwright.Shell
