import Stubwright.Proofs.Disk.Paving
import Stubwright.Stub.Emission

namespace Stubwright

open Disk Disk.Path

variable {world : World} {path directory : String}

namespace Disk.World

/-- Whether something stands at a path that is no directory, as far as the path shows it. -/
def blocks (world : World) (path : String) : Bool :=
  !path.isEmpty && world.pathExists path && !world.isDirectory path

theorem split_of_blockedAt? (chosen : blockedAt? world directory = some path) :
    ∃ lower upper, ancestors directory = lower ++ path :: upper ∧ world.blocks path = true ∧
      ∀ above ∈ upper, world.blocks above = false := by
  obtain ⟨blocked, upper, lower, whole, free⟩ := List.find?_eq_some_iff_append.mp chosen
  refine ⟨lower.reverse, upper.reverse, ?_, blocked, fun above listed => ?_⟩
  · have turned := congrArg List.reverse whole
    simpa using turned
  · have unblocked := free above (List.mem_reverse.mp listed)
    rwa [Bool.not_eq_true'] at unblocked

end Disk.World

namespace Disk.World.IsPlain

variable (plain : world.IsPlain) (walkable : IsWalkable path)
include plain walkable

/-- A path counts as blocked exactly if it ends in the name of a file. -/
theorem blocks_iff : world.blocks path = true ↔
    world.tree.HasFile (world.placeOf path) ∧ EndsInStep (steps path) := by
  by_cases nothing : path = ""
  · subst nothing
    have directory : world.tree.node? (world.placeOf "") = some .directory := by
      rw [placeOf, show names "" = [] from rfl, List.append_nil]
      exact plain.start ""
    simp [blocks, Tree.HasFile, directory]
  have filled : path.isEmpty = false := by simpa using nothing
  rw [blocks, filled, pathExists, isDirectory]
  by_cases ends : EndsInStep (steps path)
  · rw [plain.nodeAt?_of_isTrim walkable nothing (.inr ends)]
    rcases plain.tree.cases (world.placeOf path) with found | found | ⟨content, isExecutable, found⟩
    · simp [Tree.HasFile, found]
    · simp [Tree.HasFile, found]
    · simp [Tree.HasFile, found, ends]
  · by_cases directory : world.tree.node? (world.placeOf path) = some .directory
    · rw [plain.nodeAt?_of_directory walkable nothing directory]
      simp [ends]
    · rw [plain.nodeAt?_of_not_endsInStep walkable nothing ends directory]
      simp [ends]

end Disk.World.IsPlain

namespace Disk.World

/-- A file is where a directory belongs or above it. -/
def IsBlocked (world : World) (directory : String) : Prop :=
  ∃ place, place <+: world.placeOf directory ∧ world.tree.HasFile place

theorem start_of_mem_ancestors (member : path ∈ ancestors directory) :
    world.start path = world.start directory :=
  start_of_absolute world ((ladder_ancestors directory).isAbsolute_eq path member)

theorem placeOf_above (member : path ∈ ancestors directory) :
    world.placeOf path <+: world.placeOf directory := by
  rw [placeOf, placeOf, start_of_mem_ancestors member, List.prefix_append_right_inj]
  exact (ladder_ancestors directory).names_front path member

namespace IsPlain

variable (plain : world.IsPlain) (walkable : IsWalkable directory)
include plain

theorem eq_of_hasFile {place upper : Place} (front : upper <+: place)
    (file : world.tree.HasFile place) (file_above : world.tree.HasFile upper) : upper = place := by
  obtain ⟨more, rfl⟩ := front
  obtain ⟨content, isExecutable, found⟩ := file
  by_contra apart
  have some_more : more ≠ [] := fun nothing => apart (by rw [nothing, List.append_nil])
  exact file_above.ne_directory (plain.tree.directory_above some_more (by simp [found]))

include walkable

theorem blockedAt?_eq_none
    (clear : ∀ path ∈ ancestors directory,
      world.tree.HasFile (world.placeOf path) → ¬ EndsInStep (steps path)) :
    blockedAt? world directory = none := by
  rw [blockedAt?, List.find?_eq_none]
  intro path listed blocks
  have member := List.mem_reverse.mp listed
  have walkable_path := (ladder_ancestors directory).isWalkable walkable path member
  obtain ⟨file, ends⟩ := (plain.blocks_iff walkable_path).mp blocks
  exact clear path member file ends

theorem blockedAt?_of_clear (clear : ¬ world.IsBlocked directory) :
    blockedAt? world directory = none :=
  plain.blockedAt?_eq_none walkable fun _ member file =>
    absurd ⟨_, placeOf_above member, file⟩ clear

/-- A path that goes on behind the name of a file does not show the file. -/
theorem blockedAt?_of_hidden (file : world.tree.HasFile (world.placeOf directory))
    (endless : ¬ EndsInStep (steps directory)) : blockedAt? world directory = none := by
  refine plain.blockedAt?_eq_none walkable fun path member file_above => ?_
  have same := plain.eq_of_hasFile (placeOf_above member) file file_above
  rw [placeOf, placeOf, start_of_mem_ancestors member, List.append_cancel_left_eq] at same
  have some_name : names directory ≠ [] :=
    plain.names_ne_nil file.ne_directory
  rwa [(ladder_ancestors directory).eq_of_names some_name path member same]

omit walkable in
theorem exists_rung (blocked : world.IsBlocked directory) :
    ∃ path ∈ ancestors directory, world.tree.HasFile (world.placeOf path) := by
  obtain ⟨place, upper, file⟩ := blocked
  obtain ⟨front, rfl⟩ : world.start directory <+: place := by
    refine (List.prefix_or_prefix_of_prefix upper (List.prefix_append _ _)).resolve_left fun above => ?_
    exact file.ne_directory (plain.tree.directory_on_way above (plain.start directory))
  rw [placeOf, List.prefix_append_right_inj] at upper
  obtain ⟨path, member, spelled⟩ := (ladder_ancestors directory).covers upper
  exact ⟨path, member, by rwa [placeOf, spelled, start_of_mem_ancestors member]⟩

theorem blockedAt?_of_blocked (blocked : world.IsBlocked directory)
    (shown : world.tree.HasFile (world.placeOf directory) → EndsInStep (steps directory)) :
    ∃ lower path upper, ancestors directory = lower ++ path :: upper ∧
      world.tree.HasFile (world.placeOf path) ∧
      (∀ above ∈ upper, ¬ world.tree.HasFile (world.placeOf above)) ∧
      blockedAt? world directory = some path := by
  have ladder := ladder_ancestors directory
  have blocks_iff_file {path : String} (member : path ∈ ancestors directory) :
      world.blocks path = true ↔ world.tree.HasFile (world.placeOf path) := by
    rw [plain.blocks_iff (ladder.isWalkable walkable path member), and_iff_left_iff_imp]
    intro file
    rcases ladder.isTrim path member with rfl | trim
    · exact shown file
    · exact trim.resolve_left (plain.names_ne_nil file.ne_directory)
  obtain ⟨rung, member, file⟩ := plain.exists_rung blocked
  have some_path : (blockedAt? world directory).isSome = true :=
    List.find?_isSome.mpr ⟨rung, List.mem_reverse.mpr member, (blocks_iff_file member).mpr file⟩
  obtain ⟨path, chosen⟩ := Option.isSome_iff_exists.mp some_path
  obtain ⟨lower, upper, whole, blocked_path, free⟩ := split_of_blockedAt? chosen
  refine ⟨lower, path, upper, whole, (blocks_iff_file (by simp [whole])).mp blocked_path, ?_, chosen⟩
  intro above listed file_above
  have unblocked := free above listed
  rw [(blocks_iff_file (by simp [whole, listed])).mpr file_above] at unblocked
  cases unblocked

end IsPlain

end Disk.World

end Stubwright
