import Stubwright.Proofs.Archive.Single
import Stubwright.Proofs.Disk.Width
import Stubwright.Proofs.Packaging.Outcome

namespace Stubwright

open Disk Path

variable {host : Host} {settings : StubSettings} {compiler : Compiler} {classPath : List String}
  {archivePath staging : String} {lineage : Lineage} {unit : CompilationUnit}
  {emitted : EmittedUnit} {outcome : CompileOutcome} {before staged compiled packed after : World}
  {world : World} {base : Place} {name : String}

def Compiles (host : Host) (settings : StubSettings) (compiler : Compiler)
    (classPath : List String) (lineage : Lineage) (before : World) (emitted : EmittedUnit)
    (outcome : CompileOutcome) (compiled : World) : Prop :=
  ∃ unit staged, lineage.implementation settings = .ok unit ∧
    Change.makeDirectory (stagingPath host before) before = .ok staged ∧
    (compileIn (stagingPath host before) settings compiler classPath lineage.self.name
      unit).runIn staged = (.ok (emitted, outcome), compiled)

inductive Ends (host : Host) (settings : StubSettings) (compiler : Compiler)
    (classPath : List String) (archivePath : String) (lineage : Lineage) (before : World) :
    Except Failure PackagedUnit × World → Prop
  | failed {failure : Failure} {after : World} (grows : Grows before after)
      (stands : ∀ node, before.standsAt archivePath = some node →
        after.standsAt archivePath = some node)
      (same : ".." ∉ pieces archivePath → after.standsAt archivePath = before.standsAt archivePath)
      (cleared : Cleared host before after) :
      Ends host settings compiler classPath archivePath lineage before (.error failure, after)
  | packed {emitted : EmittedUnit} {outcome : CompileOutcome} {compiled grown after : World}
      {content : List UInt8} {place : Place}
      (compiles : Compiles host settings compiler classPath lineage before emitted outcome compiled)
      (status : outcome.status = 0)
      (readable :
        compiled.readFile (join (stagingPath host before) emitted.target.artifactPath) = .ok content)
      (small : Archive.fits host.deflater content = true)
      (grows : Grows before grown)
      (stores : Archive.Stores grown after archivePath
        (Archive.single host.deflater emitted.target.entryName content) place)
      (found : (∀ target, before.tree.node? place ≠ some (.link target)) →
        after.standsAt archivePath =
          some (.file (Archive.single host.deflater emitted.target.entryName content) false))
      (cleared : Cleared host before after) :
      Ends host settings compiler classPath archivePath lineage before
        (.ok (emitted.packaged archivePath), after)

theorem ends_unchanged (failure : Failure) :
    Ends host settings compiler classPath archivePath lineage before (.error failure, before) :=
  .failed (.refl before) (fun _ stands => stands) (fun _ => rfl) (cleared_refl host before)

section Outcomes

variable {grown : World} {place : Place}
  (opens : Opens host before staged name base) (changes : ChangesBelow base before compiled)
  (order : before.InOrder name) (hidden : name ∉ pieces archivePath)
  (removal : Change.removeDirectory (stagingPath host before) packed = .ok after)
include opens changes order hidden removal

/-- A failed packaging leaves directories, and what stood at the path. -/
theorem ends_of_failed (failure : Failure)
    (made : grown = compiled ∨
      grown = ((makeDirectories (Archive.directoryOf archivePath)).runIn compiled).2)
    (same : SameView grown packed) :
    Ends host settings compiler classPath archivePath lineage before (.error failure, after) := by
  have fromCompiled : Grows compiled packed := by
    rcases made with rfl | rfl
    · exact same.grows
    · exact (grows_makeDirectories _ _).trans same.grows
  have working := fromCompiled.working.trans changes.working
  have kept : before.tree.KeepsOrCloses packed.tree := fun place node _ found =>
    .inl (fromCompiled.kept place node (opens.kept changes found))
  have gone := opens.cleared working kept removal
  obtain rfl := opens.removed working kept removal
  have hiddenNamed : name ∉ named archivePath := fun inside =>
    hidden (mem_pieces_of_mem_named inside)
  have compiledView := changes.of_mem opens.mem
  have clearedView := (ChangesIn.remove base packed).of_mem opens.mem
  have notWorking : name ∉ packed.workingDirectory := by
    rw [fromCompiled.working, changes.working]
    exact order.notWorking
  -- The path does not name the staging directory, so neither the compiler's work nor the removal of
  -- the directory shows along it.
  have sameBefore : compiled.standsAt archivePath = before.standsAt archivePath :=
    compiledView.standsAt_eq order.hides order.notWorking hiddenNamed
  have sameAfter := clearedView.standsAt_eq (fromCompiled.hides (compiledView.hides order.hides))
    notWorking hiddenNamed
  refine .failed (Grows.cleared opens.fresh.inside opens.fresh.free changes fromCompiled)
    (fun node stands => ?_) (fun downwards => ?_) gone
  · rw [sameAfter]
    exact fromCompiled.standsAt_eq_some (sameBefore.trans stands)
  · rw [sameAfter, same.standsAt_of_sameView, ← sameBefore]
    rcases made with rfl | rfl
    · rfl
    · exact Archive.standsAt_makeDirectories (World.InOrder.of_changesIn compiledView order) hidden
        downwards

theorem ends_of_packed {content : List UInt8}
    (compiles : Compiles host settings compiler classPath lineage before emitted outcome compiled)
    (status : outcome.status = 0)
    (readable :
      compiled.readFile (join (stagingPath host before) emitted.target.artifactPath) = .ok content)
    (small : Archive.fits host.deflater content = true)
    (stores : Archive.Stores
      ((makeDirectories (Archive.directoryOf archivePath)).runIn compiled).2 packed archivePath
      (Archive.single host.deflater emitted.target.entryName content) place) :
    Ends host settings compiler classPath archivePath lineage before
      (.ok (emitted.packaged archivePath), after) := by
  have grows := grows_makeDirectories (Archive.directoryOf archivePath) compiled
  have working := stores.working.trans (grows.working.trans changes.working)
  have kept : before.tree.KeepsOrCloses packed.tree := fun other node _ found =>
    stores.kept_or_closed other (grows.kept other node (opens.kept changes found))
  have gone := opens.cleared working kept removal
  obtain rfl := opens.removed working kept removal
  have hiddenNamed : name ∉ named archivePath := fun inside =>
    hidden (mem_pieces_of_mem_named inside)
  have compiledView := changes.of_mem opens.mem
  have clearedView := (ChangesIn.remove base packed).of_mem opens.mem
  have grownOrder := Archive.inOrder_makeDirectories (World.InOrder.of_changesIn compiledView order)
    hidden
  obtain ⟨clean, cleared⟩ := stores.cleared opens.fresh.inside opens.mem grownOrder hiddenNamed
  refine .packed compiles status readable small
    (Grows.cleared opens.fresh.inside opens.fresh.free changes grows) cleared (fun noLink => ?_)
    gone
  have notWorking : name ∉ packed.workingDirectory := by
    rw [stores.working]
    exact grownOrder.notWorking
  rw [clearedView.standsAt_eq (stores.hides grownOrder.hides) notWorking hiddenNamed]
  refine stores.standsAt grownOrder hiddenNamed fun target found => noLink target ?_
  rw [← compiledView.elsewhere place clean]
  exact grows.link_before found

end Outcomes

/-- Nothing else uses the name of the staging directory, and the directory can be removed. -/
structure Undisturbed (host : Host) (settings : StubSettings) (compiler : Compiler)
    (classPath : List String) (archivePath : String) (lineage : Lineage) (before : World) :
    Prop where
  inOrder : ∀ name, fileName? (stagingPath host before) = some name → before.InOrder name
  hidden : ∀ name, fileName? (stagingPath host before) = some name → name ∉ pieces archivePath
  removable : ∀ unit staged, lineage.implementation settings = .ok unit →
    Change.makeDirectory (stagingPath host before) before = .ok staged →
      ∃ after, Change.removeDirectory (stagingPath host before)
        ((packageIn host (stagingPath host before) settings compiler classPath archivePath
          lineage.self.name unit).runIn staged).2 = .ok after

theorem undisturbed_of_flat
    (named : fileName? (stagingPath host before) = some name) (slash : name ≠ "/")
    (working : before.workingDirectory = [])
    (flat : ∀ entry ∈ before.tree.entries, entry.1.length = 1 ∧ ∀ target, entry.2 ≠ .link target)
    (hidden : name ∉ pieces archivePath)
    (removes : ((lineage.implementation settings).toOption.bind fun unit =>
      (Change.makeDirectory (stagingPath host before) before).toOption.bind fun staged =>
        (Change.removeDirectory (stagingPath host before)
          ((packageIn host (stagingPath host before) settings compiler classPath archivePath
            lineage.self.name unit).runIn staged).2).toOption).isSome = true) :
    Undisturbed host settings compiler classPath archivePath lineage before := by
  have only {other : String} (found : fileName? (stagingPath host before) = some other) :
      other = name := Option.some.inj (found.symm.trans named)
  refine ⟨fun other found => ?_, fun other found => ?_, fun unit staged generated opened => ?_⟩
  · rw [only found]
    exact World.InOrder.of_flat slash working flat
  · rwa [only found]
  · rw [generated, opened] at removes
    obtain ⟨after, removal⟩ := Option.isSome_iff_exists.mp removes
    refine ⟨after, ?_⟩
    cases result : Change.removeDirectory (stagingPath host before)
      ((packageIn host (stagingPath host before) settings compiler classPath archivePath
        lineage.self.name unit).runIn staged).2 with
    | error fault => simp [Except.toOption, result] at removal
    | ok cleared => simpa [Except.toOption, result] using removal

/-- What packaging a type does to a world. -/
structure AllOrNothing (host : Host) (settings : StubSettings) (compiler : Compiler)
    (classPath : List String) (archivePath : String) (lineage : Lineage) (before : World) :
    Prop where
  emptyPath : archivePath = "" → ∀ other : Compiler,
    (lineage.package host settings other classPath archivePath).runIn before =
      (.error (.invalidArgument .emptyArchivePath), before)
  refused : ∀ failure, archivePath ≠ "" → lineage.implementation settings = .error failure →
    ∀ other : Compiler, (lineage.package host settings other classPath archivePath).runIn before =
      (.error failure, before)
  rejected : ∀ emitted outcome compiled, archivePath ≠ "" →
    Compiles host settings compiler classPath lineage before emitted outcome compiled →
      outcome.status ≠ 0 →
        ((lineage.package host settings compiler classPath archivePath).runIn before).1 =
          .error (.compileFailure emitted.target.unitPath
            (.exitStatus outcome.status outcome.diagnostics))
  missing : ∀ emitted outcome compiled, archivePath ≠ "" →
    Compiles host settings compiler classPath lineage before emitted outcome compiled →
      outcome.status = 0 →
        compiled.isFile (join (stagingPath host before) emitted.target.artifactPath) = false →
          ((lineage.package host settings compiler classPath archivePath).runIn before).1 =
            .error (.compileFailure emitted.target.unitPath
              (.noClassFile (join (stagingPath host before) emitted.target.artifactPath)))
  failed : ∀ failure after,
    (lineage.package host settings compiler classPath archivePath).runIn before =
        (.error failure, after) →
      Grows before after ∧
      (∀ node, before.standsAt archivePath = some node → after.standsAt archivePath = some node) ∧
      (".." ∉ pieces archivePath → after.standsAt archivePath = before.standsAt archivePath)
  packed : ∀ packaged after,
    (lineage.package host settings compiler classPath archivePath).runIn before =
        (.ok packaged, after) →
      ∃ emitted outcome compiled content grown place,
        Compiles host settings compiler classPath lineage before emitted outcome compiled ∧
        outcome.status = 0 ∧
        compiled.readFile (join (stagingPath host before) emitted.target.artifactPath) =
          .ok content ∧
        packaged = emitted.packaged archivePath ∧
        Grows before grown ∧
        Archive.Stores grown after archivePath
          (Archive.single host.deflater packaged.entryName content) place ∧
        ((∀ target, before.tree.node? place ≠ some (.link target)) →
          after.standsAt archivePath =
            some (.file (Archive.single host.deflater packaged.entryName content) false)) ∧
        (¬ Archive.SpellsLocator (Text.Utf8.encodeString packaged.entryName) →
          ∃ archive,
            Archive.ofBytes (Archive.single host.deflater packaged.entryName content) =
              .ok archive ∧
            archive.contents = .ok [(packaged.entryName, content)])
  cleared : ∀ result after,
    (lineage.package host settings compiler classPath archivePath).runIn before = (result, after) →
      Cleared host before after

theorem length_entryName {target : Target} {content : List UInt8}
    (readable : world.readFile (join staging target.artifactPath) = .ok content) :
    (Text.Utf8.encodeString target.entryName).length < Nat.pow 256 2 := by
  have usable : IsUsable (join staging target.artifactPath) := by
    rw [World.readFile] at readable
    cases located : world.locate (join staging target.artifactPath) with
    | error fault =>
        rw [located] at readable
        cases readable
    | ok spot => exact (World.locate_eq_ok.mp located).1
  have short := usable.short
  have longer := width_le_join staging target.artifactPath
  have entry := width_components_le target.artifactPath
  rw [Text.utf8ByteSize_eq_width, longestPath] at short
  rw [Text.Utf8.encodeString, Text.length_encode, Target.entryName]
  refine Nat.lt_of_le_of_lt (entry.trans (Nat.add_le_add_right (longer.trans short) 3)) (by decide)

/-- What is reported once the compiler has run is decided by its result and the files that it left.
-/
theorem fst_runIn_package
    (undisturbed : Undisturbed host settings compiler classPath archivePath lineage before)
    (some_path : archivePath ≠ "")
    (compiles : Compiles host settings compiler classPath lineage before emitted outcome compiled) :
    ((lineage.package host settings compiler classPath archivePath).runIn before).1 =
      ((packCompiled host (stagingPath host before) archivePath emitted outcome).runIn
        compiled).1 := by
  obtain ⟨unit, staged, generated, opened, ran⟩ := compiles
  obtain ⟨after, removal⟩ := undisturbed.removable unit staged generated opened
  rw [runIn_package some_path generated opened removal, runIn_packageIn_of_compiled ran]

section Conditions

variable (confined : compiler.IsConfined)
  (relative : isAbsolute (Target.sourcePath settings lineage.self.name) = false)
  (downwards : ".." ∉ pieces (Target.sourcePath settings lineage.self.name))
  (undisturbed : Undisturbed host settings compiler classPath archivePath lineage before)
include confined relative downwards undisturbed

theorem ends_of_opened (some_path : archivePath ≠ "")
    (generated : lineage.implementation settings = .ok unit)
    (opened : Change.makeDirectory (stagingPath host before) before = .ok staged) :
    Ends host settings compiler classPath archivePath lineage before
      ((lineage.package host settings compiler classPath archivePath).runIn before) := by
  obtain ⟨name, base, opens⟩ := opens_of_makeDirectory opened
  obtain ⟨after, removal⟩ := undisturbed.removable unit staged generated opened
  have order := undisturbed.inOrder name opens.fileName
  have hidden := undisturbed.hidden name opens.fileName
  have lies := Target.liesBelow_resolve relative downwards (stagingPath host before)
  have changes : ChangesBelow base before ((compileIn (stagingPath host before) settings compiler
      classPath lineage.self.name unit).runIn staged).2 := opens.compileIn confined lies
  rw [runIn_package some_path generated opened removal]
  rcases ran : (compileIn (stagingPath host before) settings compiler classPath lineage.self.name
    unit).runIn staged with ⟨result, compiled⟩
  rw [ran] at changes
  cases result with
  | error failure =>
      rw [runIn_packageIn_of_failed ran] at removal ⊢
      exact ends_of_failed opens changes order hidden removal failure (.inl rfl) (.refl _ _)
  | ok outcome =>
      obtain ⟨emitted, outcome⟩ := outcome
      rw [runIn_packageIn_of_compiled ran] at removal ⊢
      have packs := packsCompiled host compiled (stagingPath host before) archivePath emitted
        outcome
      generalize (packCompiled host (stagingPath host before) archivePath emitted outcome).runIn
        compiled = ended at packs removal ⊢
      cases packs with
      | rejected status =>
          exact ends_of_failed opens changes order hidden removal _ (.inl rfl) (.refl _ _)
      | missing status absent =>
          exact ends_of_failed opens changes order hidden removal _ (.inl rfl) (.refl _ _)
      | failed status present sameView =>
          exact ends_of_failed opens changes order hidden removal _ (.inr rfl) sameView
      | packed status present readable small stores =>
          exact ends_of_packed opens changes order hidden removal
            ⟨unit, staged, generated, opened, ran⟩ status readable small stores

theorem ends_package : Ends host settings compiler classPath archivePath lineage before
    ((lineage.package host settings compiler classPath archivePath).runIn before) := by
  by_cases empty : archivePath = ""
  · rw [runIn_package_of_empty empty]
    exact ends_unchanged _
  cases generated : lineage.implementation settings with
  | error failure =>
      rw [runIn_package_of_refused empty generated]
      exact ends_unchanged failure
  | ok unit =>
      cases opened : Change.makeDirectory (stagingPath host before) before with
      | error fault =>
          obtain ⟨failure, ran⟩ : ∃ failure,
              (lineage.package host settings compiler classPath archivePath).runIn before =
                (.error failure, before) := runIn_package_of_unopened empty generated opened
          rw [ran]
          exact ends_unchanged failure
      | ok staged =>
          exact ends_of_opened confined relative downwards undisturbed empty generated opened

/-- Packaging does everything or nothing if the source file goes below the staging directory. -/
theorem allOrNothing_of_undisturbed :
    AllOrNothing host settings compiler classPath archivePath lineage before := by
  have ends := ends_package confined relative downwards undisturbed
  refine ⟨fun empty _ => runIn_package_of_empty empty,
    fun failure some_path refused _ => runIn_package_of_refused some_path refused,
    fun emitted outcome compiled some_path compiles status => ?_,
    fun emitted outcome compiled some_path compiles status absent => ?_,
    fun failure after ran => ?_, fun packaged after ran => ?_, fun result after ran => ?_⟩
  · rw [fst_runIn_package undisturbed some_path compiles, fst_packCompiled_of_rejected status]
  · rw [fst_runIn_package undisturbed some_path compiles, fst_packCompiled_of_missing status absent]
  · rw [ran] at ends
    cases ends with
    | failed grows stands same _ => exact ⟨grows, stands, same⟩
  · rw [ran] at ends
    cases ends with
    | @packed emitted outcome compiled grown _ content place compiles status readable small grows
        stores found _ =>
        exact ⟨emitted, outcome, compiled, content, grown, place, compiles, status, readable, rfl,
          grows, stores, found, Archive.contents_single (length_entryName readable) small⟩
  · rw [ran] at ends
    cases ends with
    | failed _ _ _ cleared => exact cleared
    | packed _ _ _ _ _ _ _ cleared => exact cleared

end Conditions

/-- A host on which there is nothing to run. -/
def spareHost : Host where
  runner := fun _ _ => throw (.system .notFound)
  names := .numbered
  deflater := .literal

/-- A disk with directories for temporary files and for archives. -/
def spareDisk : World :=
  { tree := ⟨[(["tmp"], .directory), (["dist"], .directory)]⟩
    workingDirectory := []
    environment := [] }

theorem allOrNothing_of_undisturbed_nestedRow :
    AllOrNothing spareHost {} (placing ["kit", "data", "RowImpl.class"] [0xca, 0xfe] 0) []
      "dist/row.jar" Target.nestedRow spareDisk ∧
    ((Target.nestedRow.package spareHost {} (placing ["kit", "data", "RowImpl.class"] [0xca, 0xfe] 0)
      [] "dist/row.jar").runIn spareDisk).2.standsAt "dist/row.jar" =
        some (.file (Archive.single spareHost.deflater "kit/data/RowImpl.class" [0xca, 0xfe])
          false) := by
  have undisturbed : Undisturbed spareHost {}
      (placing ["kit", "data", "RowImpl.class"] [0xca, 0xfe] 0) [] "dist/row.jar" Target.nestedRow
      spareDisk := by
    have chosen : fileName? (stagingPath spareHost spareDisk) = some "implgen-000000" := by
      decide +kernel
    exact undisturbed_of_flat chosen (by decide) rfl (by simp [spareDisk]) (by decide)
      (by decide +kernel)
  exact ⟨allOrNothing_of_undisturbed (isConfined_placing (by decide) _ _) (by decide +kernel)
    (by decide +kernel) undisturbed, by decide +kernel⟩

/-- An interface whose simple name is empty. -/
def nameless : Lineage where
  self :=
    { name := ⟨"a.$"⟩
      kind := .interfaceType
      modifiers := .ofList [.publicAccess, .abstractMember]
      constructors := []
      methods := []
      interfaces := []
      publicMethods := [] }
  ancestors := []

/-- A disk with an earlier archive, and a directory for temporary files beside it. -/
def usedDisk : World :=
  { tree := ⟨[(["stage"], .directory), (["out.jar"], .file [0x6f, 0x6c, 0x64] false)]⟩
    workingDirectory := []
    environment := [("TMPDIR", "stage")] }

/-- With a suffix that leads upwards the source file goes where the archive stands. -/
theorem not_allOrNothing : ¬ ∀ (host : Host) (settings : StubSettings) (compiler : Compiler)
    (classPath : List String) (archivePath : String) (lineage : Lineage) (before : World),
    compiler.IsConfined → Undisturbed host settings compiler classPath archivePath lineage before →
      AllOrNothing host settings compiler classPath archivePath lineage before := by
  intro always
  let settings : StubSettings := { suffix := "../../../out", extension := "jar" }
  let compiler : Compiler := fun _ => pure ⟨1, ""⟩
  have confined : compiler.IsConfined := fun _ world _ _ => .refl _ world
  have chosen : fileName? (stagingPath spareHost usedDisk) = some "implgen-000000" := by
    decide +kernel
  have undisturbed : Undisturbed spareHost settings compiler [] "out.jar" nameless usedDisk :=
    undisturbed_of_flat chosen (by decide) rfl (by simp [usedDisk]) (by decide) (by decide +kernel)
  have all := always spareHost settings compiler [] "out.jar" nameless usedDisk confined undisturbed
  have stood : usedDisk.standsAt "out.jar" = some (.file [0x6f, 0x6c, 0x64] false) := by
    decide +kernel
  have refused : ((nameless.package spareHost settings compiler [] "out.jar").runIn
      usedDisk).1.toOption = none := by decide +kernel
  have replaced : ((nameless.package spareHost settings compiler [] "out.jar").runIn
      usedDisk).2.standsAt "out.jar" ≠ some (.file [0x6f, 0x6c, 0x64] false) := by decide +kernel
  rcases ran : (nameless.package spareHost settings compiler [] "out.jar").runIn usedDisk with
    ⟨result, after⟩
  rw [ran] at refused replaced
  cases result with
  | ok packaged => cases refused
  | error failure => exact replaced ((all.failed failure after ran).2.1 _ stood)

end Stubwright
