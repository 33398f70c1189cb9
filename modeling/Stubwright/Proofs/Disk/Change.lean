import Stubwright.Proofs.Disk.Ancestors
import Stubwright.Proofs.Disk.Walk

namespace Stubwright.Disk

open Disk.Path

variable {world after : World} {path : String} {last : LastStep} {todo : List String} {spot : Spot}
  {place : Place}

structure IsUsable (path : String) : Prop where
  filled : path ≠ ""
  zero : '\x00' ∉ path.toList
  short : path.utf8ByteSize ≤ longestPath

namespace World

def start (world : World) (path : String) : Place :=
  if isAbsolute path then [] else world.workingDirectory

theorem start_of_absolute {other : String} (world : World)
    (absolute : isAbsolute path = isAbsolute other) : world.start path = world.start other := by
  rw [start, start, absolute]

theorem start_of_working (working : after.workingDirectory = world.workingDirectory)
    (path : String) : after.start path = world.start path := by
  rw [start, start, working]

theorem walkFrom_of_usable (usable : IsUsable path) : world.walkFrom last path todo =
    (walk world.tree last mostLinks todo (world.start path)).mapError .system := by
  rw [walkFrom, if_neg (by simpa using usable.filled), if_neg (by simpa using usable.zero),
    if_neg (Nat.not_lt.mpr usable.short), ← start]

theorem usable_of_walkFrom (walked : world.walkFrom last path todo = .ok spot) : IsUsable path := by
  rw [walkFrom] at walked
  split at walked
  · cases walked
  split at walked
  · cases walked
  split at walked
  · cases walked
  rename_i filled zero short
  exact ⟨by simpa using filled, by simpa using zero, Nat.not_lt.mp short⟩

theorem walkFrom_eq_ok : world.walkFrom last path todo = .ok spot ↔
    IsUsable path ∧ Leads world.tree last mostLinks todo (world.start path) spot := by
  constructor
  · intro walked
    have usable := usable_of_walkFrom walked
    refine ⟨usable, leads_of_walk ?_⟩
    rw [walkFrom_of_usable usable] at walked
    cases result : walk world.tree last mostLinks todo (world.start path) with
    | error fault => simp [result, Except.mapError] at walked
    | ok found => simpa [result, Except.mapError] using walked
  · rintro ⟨usable, leads⟩
    rw [walkFrom_of_usable usable, leads.walk_eq_ok]
    rfl

theorem locateEntry_eq_ok : world.locateEntry path = .ok spot ↔
    IsUsable path ∧ Leads world.tree .entry mostLinks (named path) (world.start path) spot :=
  walkFrom_eq_ok

theorem locate_eq_ok : world.locate path = .ok spot ↔
    IsUsable path ∧ Leads world.tree .target mostLinks (steps path) (world.start path) spot :=
  walkFrom_eq_ok

theorem locateForWriting_eq_ok : world.locateForWriting path = .ok spot ↔
    IsUsable path ∧ Leads world.tree .written mostLinks (steps path) (world.start path) spot :=
  walkFrom_eq_ok

end World

namespace Change

theorem makeDirectory_ok (made : makeDirectory path world = .ok after) :
    ∃ place, IsUsable path ∧
      Leads world.tree .entry mostLinks (named path) (world.start path) ⟨place, none⟩ ∧
      after = { world with tree := world.tree.put place .directory } := by
  rw [makeDirectory] at made
  split at made
  · cases made
  · rename_i place located
    obtain ⟨usable, leads⟩ := World.locateEntry_eq_ok.mp located
    exact ⟨place, usable, leads, (Except.ok.inj made).symm⟩
  · cases made

theorem writeFile_ok {content : List UInt8} (written : writeFile path content world = .ok after) :
    ∃ spot, IsUsable path ∧
      Leads world.tree .written mostLinks (steps path) (world.start path) spot ∧
      spot.node ≠ some .directory ∧
      (after = world ∨ ∃ isExecutable,
        after = { world with tree := world.tree.put spot.place (.file content isExecutable) }) := by
  rw [writeFile] at written
  split at written
  · cases written
  · cases written
  · rename_i place device located
    obtain ⟨usable, leads⟩ := World.locateForWriting_eq_ok.mp located
    split at written
    · exact ⟨_, usable, leads, by simp, .inl (Except.ok.inj written).symm⟩
    · cases written
  · rename_i place old isExecutable located
    obtain ⟨usable, leads⟩ := World.locateForWriting_eq_ok.mp located
    exact ⟨_, usable, leads, by simp, .inr ⟨isExecutable, (Except.ok.inj written).symm⟩⟩
  · rename_i place node notDirectory _ _ located
    obtain ⟨usable, leads⟩ := World.locateForWriting_eq_ok.mp located
    refine ⟨_, usable, leads, ?_, .inr ⟨false, (Except.ok.inj written).symm⟩⟩
    rintro rfl
    exact notDirectory rfl

theorem removeDirectory_ok (removed : removeDirectory path world = .ok after) :
    ∃ place node, IsUsable path ∧ node.isPassage ∧
      Leads world.tree .entry mostLinks (named path) (world.start path) ⟨place, some node⟩ ∧
      after = { world with tree := world.tree.remove place } := by
  rw [removeDirectory] at removed
  split at removed
  · cases removed
  · cases removed
  · rename_i place located
    obtain ⟨usable, leads⟩ := World.locateEntry_eq_ok.mp located
    exact ⟨place, .directory, usable, trivial, leads, (Except.ok.inj removed).symm⟩
  · rename_i place target located
    obtain ⟨usable, leads⟩ := World.locateEntry_eq_ok.mp located
    exact ⟨place, .link target, usable, trivial, leads, (Except.ok.inj removed).symm⟩
  · cases removed

/-- A file that is renamed takes the place of anything but a directory. -/
theorem rename_ok {source target : String} {content : List UInt8} {isExecutable : Bool}
    (sourceLeads : Leads world.tree .entry mostLinks (named source) (world.start source)
      ⟨place, some (.file content isExecutable)⟩)
    (renamed : rename source target world = .ok after) :
    ∃ spot, IsUsable target ∧
      Leads world.tree .entry mostLinks (named target) (world.start target) spot ∧
      spot.node ≠ some .directory ∧
      after = if place = spot.place then world
        else { world with tree := world.tree.move place spot.place } := by
  rw [rename] at renamed
  split at renamed
  · cases renamed
  split at renamed
  · cases renamed
  · cases renamed
  rename_i start stop located locatedToo
  obtain ⟨-, leads⟩ := World.locateEntry_eq_ok.mp located
  obtain ⟨usable, leadsToo⟩ := World.locateEntry_eq_ok.mp locatedToo
  cases sourceLeads.unique leads
  dsimp only at renamed
  split at renamed
  · cases renamed
  split at renamed
  · cases renamed
  split at renamed
  · cases renamed
  split at renamed
  · cases renamed
  rename_i checked
  refine ⟨stop, usable, leadsToo, ?_, ?_⟩
  · intro directory
    simp [checkReplacement, directory] at checked
  · split at renamed
    · rename_i same
      rw [if_pos same, Except.ok.inj renamed]
    · rename_i apart
      rw [if_neg apart, Except.ok.inj renamed]

end Change

end Stubwright.Disk
