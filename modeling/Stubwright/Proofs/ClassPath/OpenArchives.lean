import Stubwright.ClassPath
import Stubwright.Proofs.Disk.Components
import Stubwright.Proofs.Steps

/-!
Searches with open archives. As long as nothing on the disk changes, an archive that was opened before
is the one that opening its path again would give, so a search finds what it finds with no archive
open, and leaves archives open that are as good.
-/
namespace Stubwright

open Disk

namespace ClassPath

variable {α β : Type} {world : World} {path other name entry : String} {archives : OpenArchives}
  {search : Searching α} {result : Except Failure α}

def run (search : Searching α) (archives : OpenArchives) : Except Failure α × OpenArchives :=
  search.run.run archives

theorem run_get_bind (next : OpenArchives → Searching α) (archives : OpenArchives) :
    run (get >>= next) archives = run (next archives) archives := rfl

/-- What is open under a path that is there is what opening the path gives. -/
def IsFaithful (world : World) (archives : OpenArchives) : Prop :=
  ∀ path opened, world.pathExists path = true →
    archives.lookup (Path.components path) = some opened → openArchive world path = .ok opened

theorem isFaithful_nil (world : World) : IsFaithful world [] := by
  intro path opened there found
  cases found

theorem locate_of_pathExists (there : world.pathExists path = true) :
    ∃ spot, world.locate path = .ok spot := by
  rw [World.pathExists, World.nodeAt?] at there
  cases located : world.locate path with
  | error fault => simp [located] at there
  | ok spot => exact ⟨spot, rfl⟩

/-- Whether an archive can be opened depends on nothing but the components of its path. -/
theorem openArchive_of_components {opened : OpenArchive}
    (same : Path.components path = Path.components other) (there : world.pathExists path = true)
    (thereToo : world.pathExists other = true) (opens : openArchive world path = .ok opened) :
    openArchive world other = .ok opened := by
  obtain ⟨spot, located⟩ := locate_of_pathExists there
  obtain ⟨spotToo, locatedToo⟩ := locate_of_pathExists thereToo
  obtain rfl := World.locate_unique_of_components same located locatedToo
  have content : world.readFile other = world.readFile path := by
    rw [World.readFile, World.readFile, located, locatedToo]
  rw [openArchive] at opens ⊢
  rw [content, locatedToo]
  rw [located] at opens
  cases readable : world.readFile path with
  | error fault => simp [readable] at opens
  | ok bytes =>
      rw [readable] at opens
      dsimp only at opens ⊢
      cases whole : Archive.ofBytes bytes with
      | error fault => simp [whole] at opens
      | ok archive => rwa [whole] at opens

theorem IsFaithful.cons {opened : OpenArchive} (faithful : IsFaithful world archives)
    (there : world.pathExists path = true) (opens : openArchive world path = .ok opened) :
    IsFaithful world ((Path.components path, opened) :: archives) := by
  intro other kept thereToo found
  rw [List.lookup_cons] at found
  split at found
  · rename_i same
    obtain rfl := Option.some.inj found
    exact openArchive_of_components (eq_of_beq same).symm there thereToo opens
  · exact faithful other kept thereToo found

/-- A search gives a result whatever faithful archives are open, and leaves faithful ones open. -/
def Finds (world : World) (search : Searching α) (result : Except Failure α) : Prop :=
  ∀ archives, IsFaithful world archives →
    (run search archives).1 = result ∧ IsFaithful world (run search archives).2

theorem finds_pure (value : α) : Finds world (pure value) (.ok value) :=
  fun _ faithful => ⟨rfl, faithful⟩

theorem finds_throw (failure : Failure) :
    Finds world (throw failure : Searching α) (.error failure) :=
  fun _ faithful => ⟨rfl, faithful⟩

theorem finds_liftM (result : Except Failure α) :
    Finds world (liftM result : Searching α) result := by
  cases result with
  | error failure => exact finds_throw failure
  | ok value => exact finds_pure value

theorem Finds.bind {next : α → Searching β} {plain : α → Except Failure β}
    (first : Finds world search result)
    (second : ∀ value, result = .ok value → Finds world (next value) (plain value)) :
    Finds world (search >>= next) (result >>= plain) :=
  Gives.bind first second

theorem Finds.unique {resultToo : Except Failure α} (finds : Finds world search result)
    (findsToo : Finds world search resultToo) : resultToo = result :=
  ((findsToo [] (isFaithful_nil world)).1).symm.trans (finds [] (isFaithful_nil world)).1

theorem finds_opened (there : world.pathExists path = true) :
    Finds world (opened world path) ((openArchive world path).map OpenArchive.archive) := by
  intro archives faithful
  rw [opened, run_get_bind]
  cases kept : archives.lookup (Path.components path) with
  | some found =>
      rw [faithful path found there kept]
      exact ⟨rfl, faithful⟩
  | none =>
      dsimp only
      cases opens : openArchive world path with
      | error failure => exact ⟨rfl, faithful⟩
      | ok found =>
          refine ⟨rfl, ?_⟩
          exact faithful.cons there opens

end ClassPath

end Stubwright
