import Stubwright.Proofs.Disk.Action
import Stubwright.Proofs.Disk.PlainTree

/-!
Making directories where no file is in the way. The ladder is climbed until a directory is found, and
on the way back every rung is made; a lowest rung that goes on behind its last name is never made.
-/
namespace Stubwright.Disk

open Disk.Path

variable {world before between after : World} {place : Place} {name path : String}
  {paths above : List String} {fault : Fault}

theorem concat_not_front (place : Place) (name : String) : ¬ place ++ [name] <+: place := by
  intro front
  have shorter := front.length_le
  rw [List.length_append, List.length_singleton] at shorter
  omega

/-- Every place on the way to a place is a directory, and nothing else changes. -/
structure Paved (place : Place) (before after : World) : Prop where
  working : after.workingDirectory = before.workingDirectory
  environment : after.environment = before.environment
  node : ∀ other, after.tree.node? other =
    if other <+: place then some .directory else before.tree.node? other

namespace Paved

theorem of_directory (plain : world.tree.IsPlain)
    (directory : world.tree.node? place = some .directory) : Paved place world world := by
  refine ⟨rfl, rfl, fun other => ?_⟩
  split
  · rename_i upper
    exact plain.directory_on_way upper directory
  · rfl

theorem concat (paved : Paved place before between) (name : String) :
    Paved (place ++ [name]) before
      { between with tree := between.tree.put (place ++ [name]) .directory } := by
  refine ⟨paved.working, paved.environment, fun other => ?_⟩
  rw [Tree.node?_put _ (by simp), paved.node]
  simp only [List.prefix_concat_iff]
  by_cases here : other = place ++ [name]
  · simp [here]
  · simp [here]

theorem missing_below (paved : Paved place before after)
    (missing : before.tree.node? (place ++ [name]) = none) :
    after.tree.node? (place ++ [name]) = none ∧
      after.tree.node? (place ++ [name]).dropLast = some .directory := by
  constructor
  · rw [paved.node, if_neg (concat_not_front place name), missing]
  · rw [List.dropLast_concat, paved.node, if_pos List.prefix_rfl]

theorem not_hasFile (paved : Paved place before after) {other : Place}
    (clear : ¬ before.tree.HasFile other) : ¬ after.tree.HasFile other := by
  rintro ⟨content, isExecutable, file⟩
  rw [paved.node] at file
  split at file
  · cases file
  · exact clear ⟨content, isExecutable, file⟩

theorem placeOf (paved : Paved place before after) (path : String) :
    after.placeOf path = before.placeOf path := by
  rw [World.placeOf, World.placeOf, World.start_of_working paved.working]

theorem isPlain (paved : Paved place before after) (plain : before.IsPlain) : after.IsPlain := by
  have directory {other : Place} (found : before.tree.node? other = some .directory) :
      after.tree.node? other = some .directory := by
    rw [paved.node, found, ite_self]
  refine ⟨⟨fun other node found => ?_, fun other name some_node => ?_⟩, ?_⟩
  · rw [paved.node] at found
    split at found
    · cases found
      rfl
    · exact plain.tree.plain other node found
  · rw [paved.node] at some_node
    split at some_node
    · rename_i upper
      rw [paved.node, if_pos ((List.prefix_append _ _).trans upper)]
    · exact directory (plain.tree.closed other name some_node)
  · rw [paved.working]
    exact directory plain.working

end Paved

theorem runIn_makeDirectoriesAlong_made (filled : path ≠ "")
    (made : Change.makeDirectory path world = .ok after) :
    (makeDirectoriesAlong (path :: above)).runIn world = (.ok (), after) := by
  rw [makeDirectoriesAlong, if_neg (by simpa using filled), Action.runIn_get_bind, made]
  rfl

theorem runIn_makeDirectoriesAlong_there (filled : path ≠ "")
    (refused : Change.makeDirectory path world = .error (.system .alreadyExists))
    (directory : world.isDirectory path = true) :
    (makeDirectoriesAlong (path :: above)).runIn world = (.ok (), world) := by
  rw [makeDirectoriesAlong, if_neg (by simpa using filled), Action.runIn_get_bind, refused]
  dsimp only
  rw [Action.runIn_get_bind, if_pos directory]
  rfl

theorem runIn_makeDirectoriesAlong_below (filled : path ≠ "")
    (missing : Change.makeDirectory path world = .error (.system .notFound))
    (upper : (makeDirectoriesAlong above).runIn world = (.ok (), between)) :
    (makeDirectoriesAlong (path :: above)).runIn world =
      match Change.makeDirectory path between with
      | .ok after => (.ok (), after)
      | .error fault => (if between.isDirectory path then .ok () else .error fault, between) := by
  rw [makeDirectoriesAlong, if_neg (by simpa using filled), Action.runIn_get_bind, missing]
  dsimp only
  rw [Action.runIn_bind, upper]
  dsimp only
  rw [Action.runIn_get_bind]
  cases Change.makeDirectory path between with
  | ok after => rfl
  | error fault =>
      dsimp only
      rw [Action.runIn_get_bind]
      split <;> rfl

namespace World.IsPlain

section Stuck

variable {upper : String} (plain : world.IsPlain)
include plain

theorem names_ne_nil (stuck : world.tree.node? (world.placeOf path) ≠ some .directory) :
    names path ≠ [] := by
  intro nothing
  rw [placeOf, nothing, List.append_nil, plain.start] at stuck
  exact stuck rfl

theorem filled (stuck : world.tree.node? (world.placeOf path) ≠ some .directory) : path ≠ "" := by
  rintro rfl
  exact plain.names_ne_nil stuck rfl

theorem placeOf_rung (rung : Rung upper path)
    (stuck : world.tree.node? (world.placeOf path) ≠ some .directory) :
    ∃ name, world.placeOf path = world.placeOf upper ++ [name] := by
  obtain ⟨name, longer⟩ := rung.names.resolve_left fun both => plain.names_ne_nil stuck both.2
  refine ⟨name, ?_⟩
  rw [placeOf, placeOf, longer, start_of_absolute world rung.absolute, List.append_assoc]

theorem eq_none (stuck : world.tree.node? place ≠ some .directory)
    (clear : ∀ other, other <+: place → ¬ world.tree.HasFile other) :
    world.tree.node? place = none :=
  (plain.tree.cases place).resolve_right (by simp [stuck, clear place List.prefix_rfl])

end Stuck

variable (plain : world.IsPlain) (walkable : IsWalkable path)
include plain walkable

theorem isDirectory_iff (filled : path ≠ "") : world.isDirectory path = true ↔
    world.tree.node? (world.placeOf path) = some .directory := by
  rw [World.isDirectory, beq_iff_eq]
  constructor
  · intro shown
    by_contra stuck
    by_cases ends : EndsInStep (steps path)
    · rw [plain.nodeAt?_of_isTrim walkable filled (.inr ends)] at shown
      exact stuck shown
    · rw [plain.nodeAt?_of_not_endsInStep walkable filled ends stuck] at shown
      cases shown
  · exact plain.nodeAt?_of_directory walkable filled

theorem runIn_makeDirectoriesAlong_directory (paths : List String)
    (directory : world.tree.node? (world.placeOf path) = some .directory) :
    (makeDirectoriesAlong (path :: paths)).runIn world = (.ok (), world) := by
  by_cases nothing : path = ""
  · rw [makeDirectoriesAlong, if_pos (by simp [nothing])]
    rfl
  · exact runIn_makeDirectoriesAlong_there nothing
      (plain.makeDirectory_of_directory walkable nothing directory)
      ((plain.isDirectory_iff walkable nothing).mpr directory)

/-- One rung: it is made at once if the rung above is there, and else after it. -/
theorem paves_rung {upper : String} {higher : List String} (rung : Rung upper path)
    (clear : ∀ other, other <+: world.placeOf path → ¬ world.tree.HasFile other)
    (ends : EndsInStep (named path))
    (stuck : world.tree.node? (world.placeOf path) ≠ some .directory)
    (above : ∃ between, (makeDirectoriesAlong higher).runIn world = (.ok (), between) ∧
      Paved (world.placeOf upper) world between) :
    ∃ after, (makeDirectoriesAlong (path :: higher)).runIn world = (.ok (), after) ∧
      Paved (world.placeOf path) world after := by
  obtain ⟨name, place⟩ := plain.placeOf_rung rung stuck
  have filled := plain.filled stuck
  have missing := plain.eq_none stuck clear
  have front : (world.placeOf path).dropLast = world.placeOf upper := by
    rw [place, List.dropLast_concat]
  by_cases there : world.tree.node? (world.placeOf upper) = some .directory
  · have made := plain.makeDirectory_of_ends walkable filled ends (by rwa [front]) missing
    refine ⟨_, runIn_makeDirectoriesAlong_made filled made, ?_⟩
    rw [place]
    exact (Paved.of_directory plain.tree there).concat name
  · have unmade := plain.makeDirectory_of_short walkable filled clear missing
      (.inr (by rwa [front]))
    obtain ⟨between, ran, paved⟩ := above
    obtain ⟨still, here⟩ := paved.missing_below (place ▸ missing)
    rw [← place, ← paved.placeOf path] at still here
    have made := (paved.isPlain plain).makeDirectory_of_ends walkable filled ends here still
    refine ⟨_, (runIn_makeDirectoriesAlong_below filled unmade ran).trans (by rw [made]), ?_⟩
    rw [paved.placeOf, place]
    exact paved.concat name

/-- If nothing is in the way, every directory on the way is there afterwards. -/
theorem paves_along (ladder : Ladder path paths)
    (clear : ∀ other, other <+: world.placeOf path → ¬ world.tree.HasFile other)
    (ends : names path = [] ∨ EndsInStep (named path)) :
    ∃ after, (makeDirectoriesAlong paths).runIn world = (.ok (), after) ∧
      Paved (world.placeOf path) world after := by
  induction ladder with
  | @top path top =>
      have directory : world.tree.node? (world.placeOf path) = some .directory := by
        rw [placeOf, names_of_top top, List.append_nil]
        exact plain.start path
      exact ⟨world, plain.runIn_makeDirectoriesAlong_directory walkable [] directory,
        .of_directory plain.tree directory⟩
  | @rung path upper higher found _ ih =>
      by_cases directory : world.tree.node? (world.placeOf path) = some .directory
      · exact ⟨world, plain.runIn_makeDirectoriesAlong_directory walkable higher directory,
          .of_directory plain.tree directory⟩
      · have rung := rung_of_parent? found
        obtain ⟨name, place⟩ := plain.placeOf_rung rung directory
        have above := ih (rung.isWalkable walkable)
          (fun other above => clear other (above.trans (place ▸ List.prefix_append _ _)))
          rung.trim.ends
        exact plain.paves_rung walkable rung clear (ends.resolve_left (plain.names_ne_nil directory))
          directory above

theorem paves (clear : ∀ other, other <+: world.placeOf path → ¬ world.tree.HasFile other)
    (ends : world.tree.node? (world.placeOf path) = none → EndsInStep (named path)) :
    ∃ after, (makeDirectories path).runIn world = (.ok (), after) ∧
      Paved (world.placeOf path) world after := by
  have ladder := ladder_ancestors path
  by_cases directory : world.tree.node? (world.placeOf path) = some .directory
  · obtain ⟨higher, whole⟩ := ladder.head
    refine ⟨world, ?_, .of_directory plain.tree directory⟩
    rw [makeDirectories, whole]
    exact plain.runIn_makeDirectoriesAlong_directory walkable higher directory
  · exact plain.paves_along walkable ladder clear (.inr (ends (plain.eq_none directory clear)))

/-- A missing directory is not made if its path goes on behind its name. -/
theorem not_paved (endless : ¬ EndsInStep (named path))
    (clear : ∀ other, other <+: world.placeOf path → ¬ world.tree.HasFile other)
    (stuck : world.tree.node? (world.placeOf path) ≠ some .directory) :
    ((makeDirectories path).runIn world).1 = .error (.system .notFound) := by
  have ladder := ladder_ancestors path
  rw [makeDirectories]
  generalize ancestors path = paths at ladder
  cases ladder with
  | top top => exact absurd (names_of_top top) (plain.names_ne_nil stuck)
  | @rung _ upper higher found up =>
      have rung := rung_of_parent? found
      obtain ⟨name, place⟩ := plain.placeOf_rung rung stuck
      have filled := plain.filled stuck
      have missing := plain.eq_none stuck clear
      have unmade := plain.makeDirectory_of_short walkable filled clear missing (.inl endless)
      obtain ⟨between, ran, paved⟩ := plain.paves_along (rung.isWalkable walkable) up
        (fun other above => clear other (above.trans (place ▸ List.prefix_append _ _)))
        rung.trim.ends
      -- The step behind the name leads into a directory that is missing even below a rung that is there.
      obtain ⟨still, -⟩ := paved.missing_below (place ▸ missing)
      rw [← place, ← paved.placeOf path] at still
      have plain_between := paved.isPlain plain
      have unmade_again := plain_between.makeDirectory_of_short walkable filled
        (fun other above => paved.not_hasFile (clear other (paved.placeOf path ▸ above))) still
        (.inl endless)
      have not_there : ¬ between.isDirectory path = true := by
        rw [plain_between.isDirectory_iff walkable filled, still]
        simp
      rw [runIn_makeDirectoriesAlong_below filled unmade ran, unmade_again]
      exact if_neg not_there

end World.IsPlain

end Stubwright.Disk
