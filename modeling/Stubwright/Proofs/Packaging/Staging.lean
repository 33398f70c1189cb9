import Stubwright.Packaging
import Stubwright.Proofs.Disk.Clearing
import Stubwright.Proofs.Disk.Fresh
import Stubwright.Proofs.Stub.Emission

namespace Stubwright

open Disk Path

def stagingPath (host : Host) (world : World) : String :=
  freshPath host.names world (absolute world (temporaryDirectory world)) "implgen-" ""

/-- A compiler that changes nothing but what is in its output directory. -/
def Compiler.IsConfined (compiler : Compiler) : Prop :=
  ∀ job world place, world.locate job.outputDirectory = .ok ⟨place, some .directory⟩ →
    ChangesBelow place world ((compiler job).runIn world).2

variable {host : Host} {before staged between world after : World} {base : Place} {spot : Spot}
  {name unseen : String}
  {settings : StubSettings} {compiler : Compiler} {classPath : List String} {archivePath : String}
  {typeName : TypeName} {unit : CompilationUnit}

def placing (inner : Place) (content : List UInt8) (status : Int) : Compiler := fun job => do
  let world ← get
  match world.locate job.outputDirectory with
  | .ok ⟨place, some .directory⟩ =>
      set { world with tree := world.tree.put (place ++ inner) (.file content false) }
  | _ => pure ()
  pure ⟨status, ""⟩

theorem isConfined_placing {inner : Place} (inside : inner ≠ []) (content : List UInt8)
    (status : Int) : (placing inner content status).IsConfined := by
  intro job world place located
  rw [placing, Action.runIn_get_bind]
  simp only [located]
  exact .put (by simp [inside]) (List.prefix_append _ _) _

theorem runIn_makeStaging (host : Host) (world : World) :
    (makeStaging host).runIn world =
      match Change.makeDirectory (stagingPath host world) world with
      | .ok after => (.ok (stagingPath host world), after)
      | .error fault =>
          (.error (.ofDisk (temporaryDirectory world) (fault.atPath (stagingPath host world))),
            world) := by
  rw [makeStaging, Action.runIn_get_bind]
  dsimp only
  rw [Action.runIn_bind, Action.runIn_perform, ← stagingPath]
  cases Change.makeDirectory (stagingPath host world) world <;> rfl

theorem runIn_attempt {ε α : Type} (action : Action ε α) (world : World) :
    (attempt action).runIn world = (.ok (action.runIn world).1, (action.runIn world).2) := rfl

theorem absolute_ne_empty (world : World) (path : String) : absolute world path ≠ "" := by
  refine join_ne_empty ?_ path
  rw [World.absolutePath]
  split
  · decide
  · rename_i inside
    obtain ⟨name, rest, shape⟩ := List.exists_cons_of_ne_nil (by simpa using inside)
    rw [shape]
    simp

structure Opens (host : Host) (before staged : World) (name : String) (base : Place) : Prop where
  usable : IsUsable (stagingPath host before)
  fileName : fileName? (stagingPath host before) = some name
  isName : IsName name
  fresh : before.LeadsFresh (stagingPath host before) base
  above : ∃ parent left place, named (stagingPath host before) = named parent ++ [name] ∧
    Descends before.tree mostLinks (named parent) (before.start (stagingPath host before)) left place ∧
    base = place ++ [name]
  staged : staged = { before with tree := before.tree.put base .directory }

theorem opens_of_makeDirectory
    (made : Change.makeDirectory (stagingPath host before) before = .ok staged) :
    ∃ name base, Opens host before staged name base := by
  obtain ⟨place, usable, leads, rfl⟩ := Change.makeDirectory_ok made
  have filled := absolute_ne_empty before (temporaryDirectory before)
  obtain ⟨chosen, spelled, -⟩ := freshPath_eq host.names before
    (absolute before (temporaryDirectory before)) "implgen-" ""
  have isName : IsName (freshName host.names before.tree chosen "implgen-" "") :=
    isName_freshName (by decide) (by decide) (by decide) host.names before.tree chosen
  obtain ⟨base, fresh, same⟩ := leadsFresh_freshPath (by decide) (by decide) (by decide) filled
    usable leads
  obtain rfl : place = base := congrArg Spot.place same
  have names := isName.named_join (absolute before (temporaryDirectory before))
  rw [← spelled, ← stagingPath] at names
  rw [names] at leads
  obtain ⟨left, above, descent, goes_on⟩ := leads.descends (List.cons_ne_nil _ _)
  have there := congrArg Spot.place
    (goes_on.entry_step isName.isStill_eq_false isName.ne_upwards)
  have fileName := isName.fileName?_join filled
  rw [← spelled, ← stagingPath] at fileName
  exact ⟨_, place, usable, fileName, isName, fresh, ⟨_, left, above, names, descent, there⟩, rfl⟩

structure Cleared (host : Host) (before after : World) : Prop where
  path : after.standsAt (stagingPath host before) = none
  below : ∀ base, before.locateEntry (stagingPath host before) = .ok ⟨base, none⟩ →
    ∀ place, base <+: place → after.tree.node? place = none

theorem cleared_refl (host : Host) (world : World) : Cleared host world world := by
  have fresh {spot : Spot} (located : world.locateEntry (stagingPath host world) = .ok spot) :
      ∃ base, world.LeadsFresh (stagingPath host world) base ∧ spot = ⟨base, none⟩ := by
    obtain ⟨usable, leads⟩ := World.locateEntry_eq_ok.mp located
    exact leadsFresh_freshPath (by decide) (by decide) (by decide) (absolute_ne_empty _ _) usable
      leads
  constructor
  · rw [Option.eq_none_iff_forall_ne_some]
    intro node stands
    obtain ⟨usable, place, leads⟩ := World.standsAt_eq_some.mp stands
    obtain ⟨base, -, same⟩ := fresh (World.locateEntry_eq_ok.mpr ⟨usable, leads⟩)
    cases same
  · intro base located place below
    obtain ⟨there, leadsFresh, same⟩ := fresh located
    obtain rfl : base = there := congrArg Spot.place same
    exact leadsFresh.free.node?_eq_none leadsFresh.inside below

namespace Opens

variable (opens : Opens host before staged name base)
include opens

theorem mem : name ∈ base := by
  obtain ⟨_, _, _, -, -, rfl⟩ := opens.above
  simp

theorem confined : ChangesBelow base before staged := by
  rw [opens.staged]
  exact .put opens.fresh.inside List.prefix_rfl _

theorem kept {place : Place} {node : Node} (changes : ChangesBelow base before after)
    (found : before.tree.node? place = some node) : after.tree.node? place = some node := by
  have apart : ¬ base <+: place := by
    intro below
    rw [opens.fresh.free.node?_eq_none opens.fresh.inside below] at found
    cases found
  rw [changes.elsewhere place apart, found]

theorem houses : staged.Houses (stagingPath host before) base := by
  obtain ⟨left, descent⟩ := (opens.fresh.leads .entry).descends_made
  obtain rfl := opens.staged
  refine ⟨descent.leads_target, fun other target below found => ?_⟩
  dsimp only at found
  rw [Tree.node?_put _ opens.fresh.inside] at found
  split at found
  · cases found
  · rw [opens.fresh.free.node?_eq_none opens.fresh.inside below] at found
    cases found

/-- Whatever the compiler does, only the staging directory changes. -/
theorem compileIn (confined : compiler.IsConfined)
    (lies : (Target.resolve settings (stagingPath host before) typeName).LiesBelow
      (stagingPath host before)) :
    ChangesBelow base before ((Stubwright.compileIn (stagingPath host before) settings compiler
      classPath typeName unit).runIn staged).2 := by
  obtain ⟨changes, leads⟩ := lies.write opens.houses (unit.sourceText settings)
  rw [Stubwright.compileIn, Action.runIn_bind, CompilationUnit.emit]
  rw [Action.runIn_bind]
  rcases ran : ((Target.resolve settings (stagingPath host before) typeName).write
    (unit.sourceText settings)).runIn staged with ⟨result, written⟩
  rw [ran] at changes leads
  have soFar := opens.confined.trans changes
  cases result with
  | error failure => exact soFar
  | ok done =>
      dsimp only [Action.runIn_pure]
      obtain ⟨left, descent⟩ := leads.descends_directory
      have located : written.locate (stagingPath host before) = .ok ⟨base, some .directory⟩ :=
        locate_of_descends opens.usable descent
      have compiled := confined
        { unitPath := (Target.resolve settings (stagingPath host before) typeName).unitPath
          outputDirectory := stagingPath host before
          classPath } written base located
      rw [Action.runIn_bind]
      rcases compiling : (compiler _).runIn written with ⟨outcome, after⟩
      rw [compiling] at compiled
      cases outcome with
      | error failure => exact soFar.trans compiled
      | ok outcome => exact soFar.trans compiled

/-- The path leads to the directory or nowhere, if what is above is kept or closed. -/
theorem leads_only (working : world.workingDirectory = before.workingDirectory)
    (kept : before.tree.KeepsOrCloses world.tree)
    (led : Leads world.tree .entry mostLinks (named (stagingPath host before))
      (world.start (stagingPath host before)) spot) :
    spot = ⟨base, world.tree.node? base⟩ := by
  obtain ⟨parent, left, above, names, descent, rfl⟩ := opens.above
  have start : world.start (stagingPath host before) = before.start (stagingPath host before) :=
    World.start_of_working working _
  rw [names, start] at led
  obtain ⟨leftAfter, aboveAfter, descentAfter, goes_on⟩ := led.descends (List.cons_ne_nil _ _)
  obtain rfl := descent.of_closed kept descentAfter
  exact goes_on.entry_step opens.isName.isStill_eq_false opens.isName.ne_upwards

theorem removed (working : world.workingDirectory = before.workingDirectory)
    (kept : before.tree.KeepsOrCloses world.tree)
    (removed : Change.removeDirectory (stagingPath host before) world = .ok after) :
    after = { world with tree := world.tree.remove base } := by
  obtain ⟨place, node, -, -, leads, rfl⟩ := Change.removeDirectory_ok removed
  have there := congrArg Spot.place (opens.leads_only working kept leads)
  dsimp only at there
  rw [there]

theorem cleared (working : world.workingDirectory = before.workingDirectory)
    (kept : before.tree.KeepsOrCloses world.tree)
    (removal : Change.removeDirectory (stagingPath host before) world = .ok after) :
    Cleared host before after := by
  obtain rfl := opens.removed working kept removal
  have nothing {place : Place} (below : base <+: place) :
      (world.tree.remove base).node? place = none :=
    Tree.node?_remove_of_prefix _ opens.fresh.inside below
  have keptAfter : before.tree.KeepsOrCloses (world.tree.remove base) := by
    intro place node passage found
    by_cases below : base <+: place
    · right
      intro other _
      rw [nothing below]
      simp
    · rw [Tree.node?_remove_of_not_prefix _ below]
      exact kept place node passage found
  constructor
  · rw [Option.eq_none_iff_forall_ne_some]
    intro node stands
    obtain ⟨-, place, leads⟩ := World.standsAt_eq_some.mp stands
    have there := congrArg Spot.node (opens.leads_only (by exact working) keptAfter leads)
    rw [nothing List.prefix_rfl] at there
    cases there
  · intro other located place below
    have fresh := World.locateEntry_eq_ok.mpr ⟨opens.usable, opens.fresh.leads .entry⟩
    obtain rfl : base = other := congrArg Spot.place (Except.ok.inj (fresh.symm.trans located))
    exact nothing below

end Opens

end Stubwright
