import Stubwright.Shell.Utility.Basic

namespace Stubwright.Shell.Utility

open Disk Text

def indicator (request : Request) (world : World) (path : Value) : Value :=
  match (spotAt world path).toOption.bind (·.node), request.has 'F' with
  | some .directory, isFull => if isFull || request.has 'p' then ['/'] else []
  | some (.link _), true => ['@']
  | some (.file _ true), true => ['*']
  | _, _ => []

def listed (request : Request) (world : World) (path : Value) : List Value :=
  let names := ['.'] :: ['.', '.'] ::
    ((world.entryNames (Octets.toText path)).toOption.getD []).map octets
  let names := names.mergeSort fun a b => (compare a b).isLE
  let names :=
    if request.hasAny "af" then names
    else if request.has 'A' then names.filter fun name => name != ['.'] && name != ['.', '.']
    else names.filter fun name => name.head? != some '.'
  if request.has 'r' then names.reverse else names

/-- A directory and those below it that are listed as well, if any are. `depth` bounds how far they
lie below each other. -/
def listedDirectories (request : Request) (world : World) : (depth : Nat) → Value → List Value
  | 0, path => [path]
  | depth + 1, path =>
      if !request.has 'R' then [path]
      else
        let inner := (listed request world path).filter fun name =>
          name != ['.'] && name != ['.', '.'] &&
            ((spotAt world (below path name)).toOption.bind (·.node)) == some .directory
        path :: inner.flatMap fun name => listedDirectories request world depth (below path name)

def listingFault? (world : World) (path : Value) : Option Disk.Fault :=
  match spotAt world path with
  | .error fault => some fault
  | .ok ⟨_, none⟩ => some (.system .notFound)
  | .ok _ => none

def ls (program : Value) (arguments : List Value) : Running Nat :=
  let words := [("all", 'a'), ("almost-all", 'A'), ("directory", 'd'), ("recursive", 'R'),
    ("reverse", 'r'), ("classify", 'F')]
  let letters := "aAbBcCdfFgGhHiklLmnNopqQrRsStuUvxXZ1"
  withRequest ⟨letters, "ITw", words, false⟩ 2 program arguments fun request => do
    let world := (← get).world
    let sorted := request.operands.mergeSort fun a b => (compare a b).isLE
    let sorted := if request.has 'r' then sorted.reverse else sorted
    let paths := if sorted.isEmpty then [['.']] else sorted
    let faults := paths.filterMap fun path => (listingFault? world path).map (path, ·)
    for (path, fault) in faults do
      complainAt program "cannot access " path fault
    let found := paths.filter fun path => (listingFault? world path).isNone
    let isDirectory (path : Value) : Bool :=
      world.isDirectory (Octets.toText path) && !request.has 'd'
    let files := found.filter fun path => !isDirectory path
    let depth := (world.tree.entries.map (·.1.length)).foldl max 0
    let directories := (found.filter isDirectory).flatMap (listedDirectories request world depth)
    let groups := directories.map fun path =>
      let heading :=
        if paths.length > 1 || request.has 'R' then path ++ octets ":\n" else []
      heading ++ (listed request world path).flatMap fun name =>
        name ++ indicator request world (below path name) ++ ['\n']
    let front := files.flatMap fun path => path ++ indicator request world path ++ ['\n']
    let groups := if front.isEmpty then groups else front :: groups
    let _ ← print 1 (['\n'].intercalate groups)
    pure (if faults.isEmpty then 0 else 2)

end Stubwright.Shell.Utility
