import Stubwright.Shell.Utility.Basic

namespace Stubwright.Shell.Utility

open Disk Text

def emptyDirectoryFault? (world : World) (path : Value) : Option Disk.Fault :=
  match world.locateEntry (Octets.toText path) with
  | .error fault => some fault
  | .ok ⟨_, none⟩ => some (.system .notFound)
  | .ok ⟨place, some .directory⟩ =>
      if lastName path = ['.'] then some (.system .invalidArgument)
      else if lastName path = ['.', '.'] then some (.system .notEmpty)
      else if place.isEmpty then some (.system .busy)
      else if (world.tree.children place).isEmpty then none
      else some (.system .notEmpty)
  | .ok _ => some (.system .notDirectory)

def upwards (path : Value) : List Value :=
  let names := (cut '/' (withoutSlashes path))
  let counts := (List.range names.length).map (· + 1)
  let paths := counts.reverse.map fun count => ['/'].intercalate (names.take count)
  paths.filter (!·.isEmpty)

def removeEmpty (program : Value) (isLoud keepsFull : Bool) (undone : String) :
    List Value → Running Bool
  | [] => pure true
  | path :: above => do
      if isLoud then tell (program ++ octets ": removing directory, " ++ quoted path)
      match emptyDirectoryFault? (← get).world path with
      | none =>
          let _ ← change (Disk.Change.removeAll (Octets.toText path))
          removeEmpty program isLoud keepsFull "failed to remove directory " above
      | some fault =>
          let isLink := match spotAt (← get).world (withoutSlashes path) with
            | .ok ⟨_, some (.link _)⟩ => true
            | _ => false
          if keepsFull && fault = .system .notEmpty then pure true
          else if isLink && endsInSlash path then
            complain program
              (octets undone ++ quoted path ++ octets ": Symbolic link not followed")
            pure false
          else
            complainAt program undone path fault
            pure false

def rmdir (program : Value) (arguments : List Value) : Running Nat :=
  let words := [("parents", 'p'), ("path", 'p'), ("verbose", 'v'),
    ("ignore-fail-on-non-empty", 'n')]
  withRequest ⟨"pv", "", words, false⟩ 1 program arguments fun request => do
    if request.operands.isEmpty then misuse 1 program (octets "missing operand")
    else
      forEach request.operands fun path =>
        removeEmpty program (request.has 'v') (request.has 'n') "failed to remove "
          (if request.has 'p' then upwards path else [path])

/-- Whether a place comes before another one if directories come after what they hold. -/
def comesFirst : Place → Place → Bool
  | _, [] => true
  | [], _ => false
  | name :: rest, other :: others => if name = other then comesFirst rest others else name ≤ other

def within (tree : Tree) (place : Place) : List (Place × Node) :=
  (tree.entries.filter fun entry => place.isPrefixOf entry.1).mergeSort fun a b =>
    comesFirst a.1 b.1

def tellRemoved (tree : Tree) (path : Value) (place : Place) : Running Unit :=
  (within tree place).forM fun (inner, node) => do
    let inside := (inner.drop place.length).foldl (fun path name => below path (octets name)) path
    let kind := if node = .directory then "removed directory " else "removed "
    tell (octets kind ++ quoted inside)

def isAbsence : Disk.Fault → Bool
  | .system .notFound | .system .notDirectory | .system .invalidArgument => true
  | _ => false

def removePath (program : Value) (request : Request) (path : Value) : Running Bool := do
  let world := (← get).world
  let isRecursive := request.hasAny "rR"
  let fails (fault : Disk.Fault) : Running Bool := do
    if request.last? "fi" = some 'f' && isAbsence fault then pure true
    else
      complainAt program "cannot remove " path fault
      pure false
  if isRecursive && endsInStep path then
    complain program
      (octets "refusing to remove '.' or '..' directory: skipping " ++ quoted path)
    pure false
  else
    match spotAt world path with
    | .error fault => fails fault
    | .ok ⟨_, none⟩ => fails (.system .notFound)
    | .ok ⟨place, some .directory⟩ =>
        let isLink := match world.locateEntry (Octets.toText path) with
          | .ok ⟨_, some (.link _)⟩ => true
          | _ => false
        if isRecursive && place.isEmpty then
          let same := if path = ['/'] then [] else octets " (same as '/')"
          complain program (octets "it is dangerous to operate recursively on " ++ quoted path ++
            same)
          complain program (octets "use --no-preserve-root to override this failsafe")
          pure false
        else if isRecursive && isLink then
          let kept := (world.tree.remove place).put place .directory
          modify fun machine => { machine with world.tree := kept }
          fails (.system .notDirectory)
        else if isRecursive then
          if request.has 'v' then tellRemoved world.tree path place
          pure (← change (Disk.Change.removeAll (Octets.toText path))).isNone
        else if request.has 'd' then
          match emptyDirectoryFault? world path with
          | some fault => fails fault
          | none =>
              if request.has 'v' then tellRemoved world.tree path place
              pure (← change (Disk.Change.removeAll (Octets.toText path))).isNone
        else fails (.system .isDirectory)
    | .ok ⟨place, some _⟩ =>
        if request.has 'v' then tellRemoved world.tree path place
        pure (← change (Disk.Change.removeAll (Octets.toText path))).isNone

def rm (program : Value) (arguments : List Value) : Running Nat :=
  let words := [("force", 'f'), ("recursive", 'r'), ("dir", 'd'), ("verbose", 'v'),
    ("one-file-system", 'o'), ("preserve-root", 'o'), ("no-preserve-root", 'o')]
  withRequest ⟨"dfiIrRv", "", words, false⟩ 1 program arguments fun request => do
    if request.operands.isEmpty && !request.has 'f' then
      misuse 1 program (octets "missing operand")
    else forEach request.operands (removePath program request)

def unlink (program : Value) (arguments : List Value) : Running Nat :=
  withRequest ⟨"", "", [], false⟩ 1 program arguments fun request => do
    match request.operands with
    | [] => misuse 1 program (octets "missing operand")
    | [path] =>
        let fault? := match spotAt (← get).world path with
          | .error fault => some fault
          | .ok ⟨_, none⟩ => some (.system .notFound)
          | .ok ⟨_, some .directory⟩ => some (.system .isDirectory)
          | .ok _ => none
        match fault? with
        | none =>
            let _ ← change (Disk.Change.removeAll (Octets.toText path))
            pure 0
        | some fault =>
            complainAt program "cannot unlink " path fault
            pure 1
    | _ :: extra :: _ => misuse 1 program (octets "extra operand " ++ quoted extra)

end Stubwright.Shell.Utility
