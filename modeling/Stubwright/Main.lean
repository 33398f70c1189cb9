import Stubwright.CommandLine.Report
import Stubwright.Shell.Program

/-!
The program on a real disk. It takes in what a run can look at, lets the run happen there, and makes
the disk agree with the result. Every file that is taken in counts as executable, and a compiler has
to be a shell script.
-/
namespace Stubwright.Session

open Disk

def greatestDepth : Nat := 64

def withAncestors (tree : Tree) (place : Place) : Tree :=
  ((List.range place.length).drop 1).foldl
    (fun tree count =>
      if (tree.node? (place.take count)).isSome then tree
      else tree.put (place.take count) .directory)
    tree

def takeInPlace : (depth : Nat) → Tree → Place → IO Tree
  | 0, tree, _ => pure tree
  | depth + 1, tree, place => do
      let location ← IO.FS.realPath (World.absolutePath place.dropLast)
      let path := location / place.getLast?.getD "."
      match (← path.symlinkMetadata).type with
      | .dir =>
          let entries ← path.readDir
          entries.foldlM (fun tree entry => takeInPlace depth tree (place ++ [entry.fileName]))
            (tree.put place .directory)
      | .file =>
          let content ← IO.FS.readBinFile path
          pure (tree.put place (.file content.toList true))
      | .symlink => do
          let target ← IO.FS.realPath path
          pure (tree.put place (.link target.toString))
      | .other => pure tree

def placeOf (path : String) : Place :=
  (Path.components path).filter (· != "/")

def takeIn (tree : Tree) (path : String) : IO Tree :=
  try
    let target := (← IO.FS.realPath path).toString
    let tree ← takeInPlace greatestDepth (withAncestors tree (placeOf target)) (placeOf target)
    pure
      (if target = path then tree
      else (withAncestors tree (placeOf path)).put (placeOf path) (.link target))
  catch _ => pure tree

def environmentNames : List String :=
  ["PATH", "TMPDIR", "JAVA_HOME", "JDK_HOME", "HOME"]

def pathsIn (text : String) : List String :=
  (text.splitOn "=").flatMap fun part => (part.splitOn ":").filter Path.isAbsolute

def pathsOf (line : List String) (environment : List (String × String)) : List String :=
  let values := environment.flatMap fun (name, value) =>
    if name = "PATH" then
      Toolchain.Kit.searched environment value "javac"
    else if name = "TMPDIR" || name = "HOME" then []
    else pathsIn value
  (line.flatMap pathsIn ++ values).filter Path.isAbsolute

def worldFor (line : List String) : IO World := do
  let directory := (← IO.currentDir).toString
  let environment ← environmentNames.filterMapM fun name => do
    pure ((← IO.getEnv name).map fun value => (name, value))
  let start := Tree.put .empty ["tmp"] .directory
  let tree ← (directory :: pathsOf line environment).foldlM takeIn start
  let world : World := { tree, workingDirectory := placeOf directory, environment }
  let staging := placeOf (temporaryDirectory world)
  let tree := (withAncestors world.tree staging).put staging .directory
  pure { world with tree := Shell.withSystem tree }

/-- Makes the disk agree with the world after a run. -/
def carryOut (before after : World) : IO Unit := do
  for (place, node) in after.tree.entries do
    let path := World.absolutePath place
    if before.tree.node? place != some node then
      match node with
      | .directory => IO.FS.createDirAll path
      | .file content _ => IO.FS.writeBinFile path ⟨content.toArray⟩
      | .link _ | .device _ => pure ()
  for (place, node) in before.tree.entries.reverse do
    if (after.tree.node? place).isNone then
      match node with
      | .directory => IO.FS.removeDirAll (World.absolutePath place)
      | _ => IO.FS.removeFile (World.absolutePath place)

end Stubwright.Session

open Stubwright in
def main (line : List String) : IO UInt32 := do
  let before ← Session.worldFor line
  let (report, after) := (CommandLine.answer Shell.host line).run before
  Session.carryOut before after
  IO.print report.output
  IO.eprint report.errors
  pure report.status.toUInt32
