import Stubwright.Shell.Printing
import Stubwright.Shell.Utility.Basic

namespace Stubwright.Shell.Utility

open Disk Text

def makeDirectory (isLoud : Bool) (program path : Value) : Running (Option Disk.Fault) := do
  match ← change (Disk.Change.makeDirectory (Octets.toText path)) with
  | some fault => pure (some fault)
  | none =>
      if isLoud then tell (program ++ octets ": created directory " ++ quoted path)
      pure none

def downwards (path : Value) : List Value :=
  let names := cut '/' (withoutSlashes path)
  let counts := (List.range names.length).map (· + 1)
  let paths := counts.filterMap fun count =>
    if (names.getD (count - 1) []).isEmpty then none
    else some (['/'].intercalate (names.take count))
  if paths.isEmpty then [path] else paths.dropLast ++ [path]

def makeMissing (isLoud : Bool) (program : Value) : List Value → Running Bool
  | [] => pure true
  | path :: others => do
      let fault? ← makeDirectory isLoud program path
      let world := (← get).world
      match fault? with
      | some fault =>
          if world.isDirectory (Octets.toText path) then makeMissing isLoud program others
          else
            let fault := if !others.isEmpty && world.pathExists (Octets.toText path) then
              .system .notDirectory else fault
            complainAt program "cannot create directory " path fault
            pure false
      | none => makeMissing isLoud program others

def isMode (mode : Value) : Bool :=
  let isClause (clause : Value) : Bool :=
    let actions := clause.dropWhile "ugoa".toList.contains
    match actions with
    | action :: rest =>
        "+-=".toList.contains action && rest.all "+-=rwxXstugo01234567".toList.contains
    | [] => false
  if mode.any Char.isDigit && mode.all isOctal then
    mode.foldl (fun number c => number * 8 + (c.toNat - '0'.toNat)) 0 < 4096 * 2
  else (cut ',' mode).all isClause

def mkdir (program : Value) (arguments : List Value) : Running Nat :=
  let words := [("parents", 'p'), ("verbose", 'v'), ("mode", 'm'), ("context", 'Z')]
  withRequest ⟨"pvZ", "m", words, false⟩ 1 program arguments fun request => do
    let isLoud := request.has 'v'
    let mode := (request.value? 'm').getD ['7', '7', '7']
    if request.operands.isEmpty then misuse 1 program (octets "missing operand")
    else if !isMode mode then
      complain program (octets "invalid mode " ++ quoted mode)
      pure 1
    else
      forEach request.operands fun path => do
        if request.has 'p' then makeMissing isLoud program (downwards path)
        else
          match ← makeDirectory isLoud program path with
          | none => pure true
          | some fault =>
              complainAt program "cannot create directory " path fault
              pure false

def touch (program : Value) (arguments : List Value) : Running Nat :=
  let words := [("no-create", 'c'), ("no-dereference", 'h'), ("reference", 'r'), ("date", 'd'),
    ("time", 'T')]
  withRequest ⟨"acfhm", "rdtT", words, false⟩ 1 program arguments fun request => do
    if request.operands.isEmpty then misuse 1 program (octets "missing file operand")
    else
      forEach request.operands fun path => do
        let world := (← get).world
        let text := Octets.toText path
        if world.pathExists text then pure true
        else if request.has 'c' then pure true
        else if endsInSlash path && (world.locateEntry text).toOption.isSome then
          complainAt program "setting times of " path
            (match world.locate text with
              | .error fault => fault
              | .ok _ => .system .notFound)
          pure false
        else
          match ← change (Disk.Change.writeFile text []) with
          | none => pure true
          | some fault =>
              complainAt program "cannot touch " path fault
              pure false

def mayRun (mode : Value) (isExecutable : Bool) : Bool :=
  if mode.all isOctal then
    (mode.reverse.take 3).any fun c => (c.toNat - '0'.toNat) % 2 = 1
  else
    (cut ',' mode).foldl (fun isExecutable clause =>
      let action := clause.dropWhile "ugoa".toList.contains
      match action with
      | '+' :: rights => isExecutable || rights.contains 'x'
      | '-' :: rights => isExecutable && !rights.contains 'x'
      | '=' :: rights => rights.contains 'x'
      | _ => isExecutable) isExecutable

def takesRights (argument : Value) : Bool :=
  match argument with
  | '-' :: c :: _ => "rwxXstugoa,+=01234567".toList.contains c
  | _ => false

def changeRights (program : Value) (request : Request) (rights : Bool → Bool) (path : Value) :
    Running Bool := do
  let world := (← get).world
  let fails (fault : Disk.Fault) : Running Bool := do
    if !request.has 'f' then complainAt program "cannot access " path fault
    pure false
  match world.locate (Octets.toText path) with
  | .error fault => fails fault
  | .ok ⟨_, none⟩ => fails (.system .notFound)
  | .ok ⟨place, some _⟩ =>
      let isChanged (other : Place) : Bool :=
        other = place || (request.has 'R' && place.isPrefixOf other)
      let entries := world.tree.entries.map fun (other, node) =>
        match node with
        | .file content isExecutable =>
            (other, if isChanged other then Node.file content (rights isExecutable) else node)
        | node => (other, node)
      modify fun machine => { machine with world.tree := ⟨entries⟩ }
      pure true

def chmod (program : Value) (arguments : List Value) : Running Nat :=
  let words := [("recursive", 'R'), ("changes", 'c'), ("silent", 'f'), ("quiet", 'f'),
    ("verbose", 'v'), ("reference", 'u')]
  let modes := arguments.filter takesRights
  let others := arguments.filter (!takesRights ·)
  withRequest ⟨"cfRv", "u", words, false⟩ 1 program others fun request => do
    let operands := modes.take 1 ++ request.operands
    match request.value? 'u', operands with
    | some pattern, paths =>
        let isExecutable := (← get).world.isExecutable (Octets.toText pattern)
        forEach paths (changeRights program request fun _ => isExecutable)
    | none, [] => misuse 1 program (octets "missing operand")
    | none, [mode] => misuse 1 program (octets "missing operand after " ++ quoted mode)
    | none, mode :: paths =>
        if !isMode mode then misuse 1 program (octets "invalid mode: " ++ quoted mode)
        else forEach paths (changeRights program request (mayRun mode))

end Stubwright.Shell.Utility
