import Stubwright.Packaging
import Stubwright.Proofs.Archive.Packing
import Stubwright.Proofs.Packaging.Staging

namespace Stubwright

open Disk Path

variable {host : Host} {settings : StubSettings} {compiler : Compiler} {classPath : List String}
  {archivePath staging : String} {lineage : Lineage} {unit : CompilationUnit}
  {emitted : EmittedUnit} {outcome : CompileOutcome} {before staged compiled after world : World}

theorem exists_readFile_of_isFile {path : String} (file : world.isFile path = true) :
    ∃ content, world.readFile path = .ok content := by
  rw [World.isFile, World.nodeAt?] at file
  rw [World.readFile]
  cases located : world.locate path with
  | error fault =>
      rw [located] at file
      cases file
  | ok spot =>
      obtain ⟨place, _ | (_ | _ | _ | _)⟩ := spot
      case some.file content isExecutable => exact ⟨content, rfl⟩
      all_goals
        rw [located] at file
        cases file

def EmittedUnit.packaged (emitted : EmittedUnit) (archivePath : String) : PackagedUnit :=
  { archivePath, entryName := emitted.target.entryName, qualifiedName := emitted.qualifiedName }

inductive PacksCompiled (host : Host) (compiled : World) (staging archivePath : String)
    (emitted : EmittedUnit) (outcome : CompileOutcome) : Except Failure PackagedUnit × World → Prop
  | rejected (status : outcome.status ≠ 0) :
      PacksCompiled host compiled staging archivePath emitted outcome
        (.error (.compileFailure emitted.target.unitPath
          (.exitStatus outcome.status outcome.diagnostics)), compiled)
  | missing (status : outcome.status = 0)
      (absent : compiled.isFile (join staging emitted.target.artifactPath) = false) :
      PacksCompiled host compiled staging archivePath emitted outcome
        (.error (.compileFailure emitted.target.unitPath
          (.noClassFile (join staging emitted.target.artifactPath))), compiled)
  | failed {fault : Failure} {after : World} (status : outcome.status = 0)
      (present : compiled.isFile (join staging emitted.target.artifactPath) = true)
      (same :
        SameView ((makeDirectories (Archive.directoryOf archivePath)).runIn compiled).2 after) :
      PacksCompiled host compiled staging archivePath emitted outcome (.error fault, after)
  | packed {content : List UInt8} {after : World} {place : Place} (status : outcome.status = 0)
      (present : compiled.isFile (join staging emitted.target.artifactPath) = true)
      (readable : compiled.readFile (join staging emitted.target.artifactPath) = .ok content)
      (small : Archive.fits host.deflater content = true)
      (stores : Archive.Stores ((makeDirectories (Archive.directoryOf archivePath)).runIn compiled).2
        after archivePath (Archive.single host.deflater emitted.target.entryName content) place) :
      PacksCompiled host compiled staging archivePath emitted outcome
        (.ok (emitted.packaged archivePath), after)

theorem packsCompiled (host : Host) (compiled : World) (staging archivePath : String)
    (emitted : EmittedUnit) (outcome : CompileOutcome) :
    PacksCompiled host compiled staging archivePath emitted outcome
      ((packCompiled host staging archivePath emitted outcome).runIn compiled) := by
  rw [packCompiled]
  dsimp only
  by_cases status : outcome.status = 0
  · have success : outcome.isSuccess = true := by
      rw [CompileOutcome.isSuccess, status]
      rfl
    rw [success, if_neg (by simp), Action.runIn_get_bind]
    cases present : compiled.isFile (join staging emitted.target.artifactPath) with
    | false => exact .missing status present
    | true =>
        obtain ⟨content, readable⟩ := exists_readFile_of_isFile present
        have packs : Archive.Packs host
            ((makeDirectories (Archive.directoryOf archivePath)).runIn compiled).2 archivePath
            emitted.target.entryName content
            ((Archive.packInto host archivePath emitted.target.entryName
              (join staging emitted.target.artifactPath)).runIn compiled) :=
          Archive.packs_packInto readable
        rw [if_neg (by simp), Action.runIn_bind, Archive.pack, Action.runIn_adapt]
        generalize (Archive.packInto host archivePath emitted.target.entryName
          (join staging emitted.target.artifactPath)).runIn compiled = ran at packs ⊢
        cases packs with
        | failed same => exact .failed status present same
        | stored small stores => exact .packed status present readable small stores
  · have failure : outcome.isSuccess = false := by
      rw [CompileOutcome.isSuccess]
      simpa using status
    rw [failure, if_pos (by simp)]
    exact .rejected status

theorem fst_packCompiled_of_rejected (status : outcome.status ≠ 0) :
    ((packCompiled host staging archivePath emitted outcome).runIn compiled).1 =
      .error (.compileFailure emitted.target.unitPath
        (.exitStatus outcome.status outcome.diagnostics)) := by
  have packs := packsCompiled host compiled staging archivePath emitted outcome
  generalize (packCompiled host staging archivePath emitted outcome).runIn compiled = ended
    at packs ⊢
  cases packs with
  | rejected => rfl
  | missing success => exact absurd success status
  | failed success => exact absurd success status
  | packed success => exact absurd success status

theorem fst_packCompiled_of_missing (status : outcome.status = 0)
    (absent : compiled.isFile (join staging emitted.target.artifactPath) = false) :
    ((packCompiled host staging archivePath emitted outcome).runIn compiled).1 =
      .error (.compileFailure emitted.target.unitPath
        (.noClassFile (join staging emitted.target.artifactPath))) := by
  have packs := packsCompiled host compiled staging archivePath emitted outcome
  generalize (packCompiled host staging archivePath emitted outcome).runIn compiled = ended
    at packs ⊢
  cases packs with
  | rejected failure => exact absurd status failure
  | missing => rfl
  | failed _ present => simp [present] at absent
  | packed _ present => simp [present] at absent

theorem runIn_package (some_path : archivePath ≠ "")
    (generated : lineage.implementation settings = .ok unit)
    (opened : Change.makeDirectory (stagingPath host before) before = .ok staged)
    (removal : Change.removeDirectory (stagingPath host before)
      ((packageIn host (stagingPath host before) settings compiler classPath archivePath
        lineage.self.name unit).runIn staged).2 = .ok after) :
    (lineage.package host settings compiler classPath archivePath).runIn before =
      (((packageIn host (stagingPath host before) settings compiler classPath archivePath
        lineage.self.name unit).runIn staged).1, after) := by
  have filled : ¬ archivePath.isEmpty = true := by simpa using some_path
  rw [Lineage.package, if_neg filled, generated, Action.runIn_bind, Action.runIn_liftM]
  dsimp only
  rw [Action.runIn_bind, runIn_makeStaging, opened]
  dsimp only
  rw [Action.runIn_bind, runIn_attempt]
  dsimp only
  rw [Action.runIn_bind, removeStaging, Action.runIn_get_bind, removal]
  exact Action.runIn_liftM _ _

theorem runIn_package_of_empty (empty : archivePath = "") :
    (lineage.package host settings compiler classPath archivePath).runIn before =
      (.error (.invalidArgument .emptyArchivePath), before) := by
  rw [Lineage.package, if_pos (by rw [empty]; rfl)]
  rfl

theorem runIn_package_of_refused {failure : Failure} (some_path : archivePath ≠ "")
    (refused : lineage.implementation settings = .error failure) :
    (lineage.package host settings compiler classPath archivePath).runIn before =
      (.error failure, before) := by
  have filled : ¬ archivePath.isEmpty = true := by simpa using some_path
  rw [Lineage.package, if_neg filled, refused]
  rfl

theorem runIn_package_of_unopened {fault : Fault} (some_path : archivePath ≠ "")
    (generated : lineage.implementation settings = .ok unit)
    (closed : Change.makeDirectory (stagingPath host before) before = .error fault) :
    ∃ failure, (lineage.package host settings compiler classPath archivePath).runIn before =
      (.error failure, before) := by
  have filled : ¬ archivePath.isEmpty = true := by simpa using some_path
  rw [Lineage.package, if_neg filled, generated, Action.runIn_bind, Action.runIn_liftM]
  dsimp only
  rw [Action.runIn_bind, runIn_makeStaging, closed]
  exact ⟨_, rfl⟩

theorem runIn_packageIn_of_compiled
    (ran : (compileIn staging settings compiler classPath lineage.self.name unit).runIn staged =
      (.ok (emitted, outcome), compiled)) :
    (packageIn host staging settings compiler classPath archivePath lineage.self.name unit).runIn
        staged =
      (packCompiled host staging archivePath emitted outcome).runIn compiled := by
  rw [packageIn, Action.runIn_bind, ran]

theorem runIn_packageIn_of_failed {failure : Failure}
    (ran : (compileIn staging settings compiler classPath lineage.self.name unit).runIn staged =
      (.error failure, compiled)) :
    (packageIn host staging settings compiler classPath archivePath lineage.self.name unit).runIn
        staged =
      (.error failure, compiled) := by
  rw [packageIn, Action.runIn_bind, ran]

end Stubwright
