import Stubwright.Disk.Action
import Stubwright.Stub.Synthesis
import Stubwright.Stub.Target

namespace Stubwright

open Disk

structure EmittedUnit where
  target : Target
  className : String
  qualifiedName : String
deriving DecidableEq, Repr

/-- The topmost path on the way to a directory that exists and is something else. -/
def blockedAt? (world : World) (directory : String) : Option String :=
  (Path.ancestors directory).reverse.find? fun path =>
    !path.isEmpty && world.pathExists path && !world.isDirectory path

namespace Target

def makePackage (target : Target) : Action Failure Unit := do
  match blockedAt? (← get) target.packageDirectory with
  | some path => throw (.pathConflict path)
  | none => (makeDirectories target.packageDirectory).adapt (.ofDisk target.packageDirectory)

def write (target : Target) (source : String) : Action Failure Unit := do
  target.makePackage
  (perform (.writeFile target.unitPath (Text.Utf8.encodeString source))).adapt
    (.ofDisk target.unitPath)

end Target

namespace CompilationUnit

def emit (settings : StubSettings) (name : TypeName) (root : String) (unit : CompilationUnit) :
    Action Failure EmittedUnit := do
  let target := Target.resolve settings root name
  target.write (unit.sourceText settings)
  pure { target, className := unit.className, qualifiedName := unit.qualifiedName }

end CompilationUnit

def Lineage.implement (settings : StubSettings) (root : String) (lineage : Lineage) :
    Action Failure EmittedUnit := do
  if root.isEmpty then throw (.invalidArgument .emptyOutputRoot)
  let unit ← lineage.implementation settings
  unit.emit settings lineage.self.name root

end Stubwright
