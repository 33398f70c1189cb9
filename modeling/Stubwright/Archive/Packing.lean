import Stubwright.Archive.Writer
import Stubwright.Failure
import Stubwright.Host

/-!
Putting a compiled class into an archive. The archive is written beside its destination and takes
its place only when it is complete, so a packing that fails leaves the old one.
-/
namespace Stubwright

open Disk

namespace Archive

def directoryOf (archivePath : String) : String :=
  match Path.parent? archivePath with
  | some above => if above.isEmpty then "." else above
  | none => "."

def discard (staged : String) : Action ArchiveFault Unit := do
  match Change.removeAll staged (← get) with
  | .ok after => set after
  | .error _ => pure ()

/-- Gives the finished archive its name, or removes it. -/
def settle (staged archivePath : String) : Action ArchiveFault Unit := do
  match Change.rename staged archivePath (← get) with
  | .ok after => set after
  | .error fault =>
      discard staged
      throw (.disk fault)

/-- Why what is too large for an archive is not packed. -/
def tooLarge : Disk.Fault := .described false "Large file option has not been set"

/-- Writes an archive beside its destination and lets it take its place. -/
def replace (host : Host) (archivePath entryName artifact : String) : Action ArchiveFault Unit := do
  let staged := freshPath host.names (← get) (directoryOf archivePath) ".implgen-" ".part"
  (perform (.writeFile staged [])).adapt fun fault => .disk (fault.atPath staged)
  match (← get).readFile artifact with
  | .error fault =>
      discard staged
      throw (.cannotWriteEntry entryName fault)
  | .ok content =>
      if !sizeFits content then
        discard staged
        throw (.cannotWriteEntry entryName tooLarge)
      else if !sizeFits (host.deflater.deflate content) then
        discard staged
        throw (.cannotFinish tooLarge)
      else
        (perform (.writeFile staged (single host.deflater entryName content))).adapt .disk
        settle staged archivePath

def packInto (host : Host) (archivePath entryName artifact : String) : Action ArchiveFault Unit := do
  let directory := directoryOf archivePath
  (makeDirectories directory).adapt (.cannotCreateDirectory directory)
  if !(← get).pathExists artifact then
    match (← get).readFile artifact with
    | .ok _ => pure ()
    | .error fault => throw (.cannotRead artifact fault)
  replace host archivePath entryName artifact

def pack (host : Host) (archivePath entryName artifact : String) : Action Failure Unit :=
  (packInto host archivePath entryName artifact).adapt (.archiveFailure archivePath)

end Archive

end Stubwright
