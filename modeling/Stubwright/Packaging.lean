import Stubwright.Archive.Packing
import Stubwright.Stub.Emission
import Stubwright.Toolchain.Compiler

/-!
From a type to an archive with the compiled class that implements it. Source and class file live in
a staging directory of their own, which is gone when the action ends, whatever its result.
-/
namespace Stubwright

open Disk

structure PackagedUnit where
  archivePath : String
  entryName : String
  qualifiedName : String
deriving DecidableEq, Repr

def temporaryDirectory (world : World) : String :=
  (world.environmentValue? "TMPDIR").getD "/tmp"

def absolute (world : World) (path : String) : String :=
  Path.join (World.absolutePath world.workingDirectory) path

def makeStaging (host : Host) : Action Failure String := do
  let world ← get
  let parent := temporaryDirectory world
  let staging := freshPath host.names world (absolute world parent) "implgen-" ""
  (perform (.makeDirectory staging)).adapt fun fault => .ofDisk parent (fault.atPath staging)
  pure staging

def removeStaging (staging : String) : Action Failure Unit := do
  match Change.removeDirectory staging (← get) with
  | .ok after => set after
  | .error _ => pure ()

/-- The result of an action as a value, so that more can be done after a failure. -/
def attempt (action : Action ε α) : Action ε (Except ε α) :=
  ExceptT.lift action.run

def compileIn (staging : String) (settings : StubSettings) (compiler : Compiler)
    (classPath : List String) (name : TypeName) (unit : CompilationUnit) :
    Action Failure (EmittedUnit × CompileOutcome) := do
  let emitted ← unit.emit settings name staging
  let outcome ←
    compiler { unitPath := emitted.target.unitPath, outputDirectory := staging, classPath }
  pure (emitted, outcome)

/-- Packs the class file of a unit, if compiling has left one. -/
def packCompiled (host : Host) (staging archivePath : String) (emitted : EmittedUnit)
    (outcome : CompileOutcome) : Action Failure PackagedUnit := do
  let unitPath := emitted.target.unitPath
  if !outcome.isSuccess then
    throw (.compileFailure unitPath (.exitStatus outcome.status outcome.diagnostics))
  let artifact := Path.join staging emitted.target.artifactPath
  if !(← get).isFile artifact then
    throw (.compileFailure unitPath (.noClassFile artifact))
  Archive.pack host archivePath emitted.target.entryName artifact
  pure
    { archivePath
      entryName := emitted.target.entryName
      qualifiedName := emitted.qualifiedName }

def packageIn (host : Host) (staging : String) (settings : StubSettings) (compiler : Compiler)
    (classPath : List String) (archivePath : String) (name : TypeName) (unit : CompilationUnit) :
    Action Failure PackagedUnit := do
  let (emitted, outcome) ← compileIn staging settings compiler classPath name unit
  packCompiled host staging archivePath emitted outcome

/-- Writes an archive with the compiled implementation of a type as its only entry. -/
def Lineage.package (host : Host) (settings : StubSettings) (compiler : Compiler)
    (classPath : List String) (archivePath : String) (lineage : Lineage) :
    Action Failure PackagedUnit := do
  if archivePath.isEmpty then throw (.invalidArgument .emptyArchivePath)
  let unit ← lineage.implementation settings
  let staging ← makeStaging host
  let result ←
    attempt (packageIn host staging settings compiler classPath archivePath lineage.self.name unit)
  removeStaging staging
  result

end Stubwright
