import Stubwright.Proofs.Disk.Confinement
import Stubwright.Proofs.Stub.Blocking
import Stubwright.Proofs.Stub.Layout

/-!
What writing a source does to a tree of directories and files. It names the file that is in the way of
the package, or it makes the directories of the package and puts the source into its file, and it
touches nothing else. It fails to do so where the path of the package does not end in a name: such a
path hides a file at its end, and if it ends in a period it is not made.
-/
namespace Stubwright

open Disk Disk.Path

/-- What stands where a source is written: a file with the source, which keeps the rights of a file that
was there, or a directory that was there. -/
def nodeWritten (source : String) : Option Node → Node
  | some .directory => .directory
  | some (.file _ isExecutable) => .file (Text.Utf8.encodeString source) isExecutable
  | _ => .file (Text.Utf8.encodeString source) false

structure Placed (directory file : Place) (source : String) (before after : World) : Prop where
  working : after.workingDirectory = before.workingDirectory
  environment : after.environment = before.environment
  node : ∀ place, after.tree.node? place =
    if place = file then some (nodeWritten source (before.tree.node? file))
    else if place <+: directory then some .directory
    else before.tree.node? place

variable {world before after : World} {target : Target} {source : String}

namespace Target

/-- The path of the package takes no step upwards, the source goes to a name in it, and the system
takes all of these names. -/
structure IsOrdinary (target : Target) : Prop where
  walkable : IsWalkable target.unitPath
  file : ∃ name, '/' ∉ name.toList ∧ isComponent name = true ∧
    target.unitPath = join target.packageDirectory name

namespace IsOrdinary

variable (ordinary : target.IsOrdinary)
include ordinary

theorem walkable_package : IsWalkable target.packageDirectory := by
  obtain ⟨name, flat, counts, joined⟩ := ordinary.file
  have filled := ne_empty_of_isComponent counts
  refine ordinary.walkable.of_front ?_ fun piece member => or_iff_not_imp_right.mpr fun some_piece => ?_
  · have stem_front : target.packageDirectory.toList <+: (stem target.packageDirectory).toList := by
      rw [stem]
      split
      · exact List.prefix_rfl
      · simp
    rw [joined, join_eq_stem (isAbsolute_eq_false_of_not_mem flat), String.toList_append]
    exact stem_front.trans (List.prefix_append _ _)
  · have named_package : piece ∈ named target.packageDirectory :=
      List.mem_filter.mpr ⟨member, by simpa using some_piece⟩
    refine mem_pieces_of_mem_named ?_
    rw [joined, named_join_of_flat flat filled]
    exact List.mem_append_left _ named_package

theorem placeOf_unitPath (world : World) : ∃ name,
    world.placeOf target.unitPath = world.placeOf target.packageDirectory ++ [name] ∧
      EndsInStep (steps target.unitPath) := by
  obtain ⟨name, flat, counts, joined⟩ := ordinary.file
  have filled := ne_empty_of_isComponent counts
  have relative := isAbsolute_eq_false_of_not_mem flat
  have alone : names name = [name] := by
    rw [names, pieces_of_not_mem flat, List.filter_cons_of_pos counts, List.filter_nil]
  refine ⟨name, ?_, named target.packageDirectory, name, ?_, ?_⟩
  · have longer : names target.unitPath = names target.packageDirectory ++ [name] := by
      rw [names, joined, filter_pieces_join rfl relative, ← names, ← names, alone]
    have absolute : isAbsolute target.unitPath = isAbsolute target.packageDirectory := by
      rw [joined, isAbsolute_join, relative, Bool.or_false]
    rw [World.placeOf, World.placeOf, longer, World.start_of_absolute world absolute,
      List.append_assoc]
  · rw [joined, steps_join_of_flat flat filled, named_join_of_flat flat filled]
  · have listed : name ∈ pieces name := by simp [pieces_of_not_mem flat]
    exact moves_of_isComponent listed counts

end IsOrdinary

end Target

theorem nodeWritten_idem (source : String) (node : Option Node) :
    nodeWritten source (some (nodeWritten source node)) = nodeWritten source node := by
  rcases node with _ | (_ | _ | _ | _)
  all_goals rfl

theorem nodeWritten_of_leaf {node : Option Node} (leaf : node ≠ some .directory) (source : String) :
    ∃ isExecutable, nodeWritten source node = .file (Text.Utf8.encodeString source) isExecutable := by
  rcases node with _ | (_ | _ | _ | _)
  case some.directory => exact absurd rfl leaf
  all_goals exact ⟨_, rfl⟩

theorem isPlain_nodeWritten (source : String) (node : Option Node) :
    (nodeWritten source node).isPlain := by
  rcases node with _ | (_ | _ | _ | _)
  all_goals rfl

section Paved

variable {directory : Place} {name : String}

theorem Disk.Paved.placed {node : Node} (paved : Paved directory before after)
    (new : nodeWritten source (before.tree.node? (directory ++ [name])) = node) :
    Placed directory (directory ++ [name]) source before
      { after with tree := after.tree.put (directory ++ [name]) node } := by
  refine ⟨paved.working, paved.environment, fun place => ?_⟩
  rw [Tree.node?_put _ (by simp), new, paved.node]

theorem Disk.Paved.placed_of_directory (paved : Paved directory before after)
    (found : before.tree.node? (directory ++ [name]) = some .directory) :
    Placed directory (directory ++ [name]) source before after := by
  refine ⟨paved.working, paved.environment, fun place => ?_⟩
  rw [paved.node]
  by_cases here : place = directory ++ [name]
  · rw [if_pos here, here, found, if_neg (concat_not_front directory name)]
    rfl
  · rw [if_neg here]

end Paved

namespace Placed

variable {directory : Place} {name : String}
  (placed : Placed directory (directory ++ [name]) source before after)
include placed

theorem directory_on_way {place : Place} (upper : place <+: directory) :
    after.tree.node? place = some .directory := by
  have apart : place ≠ directory ++ [name] := by
    rintro rfl
    exact concat_not_front directory name upper
  rw [placed.node, if_neg apart, if_pos upper]

theorem keeps_directory {place : Place} (found : before.tree.node? place = some .directory) :
    after.tree.node? place = some .directory := by
  rw [placed.node]
  split
  · rename_i here
    rw [← here, found]
    rfl
  · split
    · rfl
    · exact found

theorem isPlain (plain : before.IsPlain) : after.IsPlain := by
  refine ⟨⟨fun place node found => ?_, fun place stop some_node => ?_⟩, ?_⟩
  · rw [placed.node] at found
    split at found
    · rw [← Option.some.inj found]
      exact isPlain_nodeWritten _ _
    · split at found
      · rw [← Option.some.inj found]
        rfl
      · exact plain.tree.plain place node found
  · rw [placed.node] at some_node
    split at some_node
    · rename_i here
      rw [List.append_singleton_inj] at here
      exact placed.directory_on_way (here.1 ▸ List.prefix_rfl)
    · split at some_node
      · rename_i upper
        exact placed.directory_on_way ((List.prefix_append _ _).trans upper)
      · exact placed.keeps_directory (plain.tree.closed place stop some_node)
  · rw [placed.working]
    exact placed.keeps_directory plain.working

theorem placeOf (path : String) : after.placeOf path = before.placeOf path := by
  rw [World.placeOf, World.placeOf, World.start_of_working placed.working]

theorem changesIn :
    ChangesIn (fun place => place <+: directory ∨ place = directory ++ [name]) before after := by
  refine ⟨placed.working, placed.environment, fun place apart => ?_⟩
  rw [not_or] at apart
  rw [placed.node, if_neg apart.2, if_neg apart.1]

theorem sameView {again : World} (twice : Placed directory (directory ++ [name]) source after again) :
    SameView after again := by
  refine ⟨twice.working, twice.environment, fun place _ => ?_⟩
  rw [twice.node]
  by_cases here : place = directory ++ [name]
  · rw [if_pos here, here, placed.node, if_pos rfl, nodeWritten_idem]
  · rw [if_neg here]
    split
    · rename_i upper
      exact (placed.directory_on_way upper).symm
    · rfl

end Placed

namespace Target

theorem runIn_makePackage_clear (clear : blockedAt? world target.packageDirectory = none) :
    target.makePackage.runIn world =
      (((makeDirectories target.packageDirectory).runIn world).1.mapError
        (.ofDisk target.packageDirectory),
        ((makeDirectories target.packageDirectory).runIn world).2) := by
  rw [makePackage, Action.runIn_get_bind, clear]
  exact Action.runIn_adapt _ _ _

theorem runIn_write_blocked (source : String) {path : String}
    (blocked : blockedAt? world target.packageDirectory = some path) :
    (target.write source).runIn world = (.error (.pathConflict path), world) := by
  have made : target.makePackage.runIn world = (.error (.pathConflict path), world) := by
    rw [makePackage, Action.runIn_get_bind, blocked]
    rfl
  rw [write, Action.runIn_bind, made]

theorem ofDisk_ne_pathConflict (path : String) (fault : Disk.Fault) (other : String) :
    Failure.ofDisk path fault ≠ .pathConflict other := by
  rw [Failure.ofDisk]
  split <;> simp

/-- A conflict is reported by the look at the way, and by nothing that follows. -/
theorem runIn_write_ne_pathConflict (clear : blockedAt? world target.packageDirectory = none)
    (path : String) : ((target.write source).runIn world).1 ≠ .error (.pathConflict path) := by
  rw [write, Action.runIn_bind, runIn_makePackage_clear clear]
  rcases (makeDirectories target.packageDirectory).runIn world with ⟨fault | ⟨⟩, between⟩
  · simpa [Except.mapError] using ofDisk_ne_pathConflict _ _ _
  · dsimp only [Except.mapError]
    rw [Action.runIn_perform]
    split
    · simp
    · simpa using ofDisk_ne_pathConflict _ _ _

variable (plain : world.IsPlain) (ordinary : target.IsOrdinary)
include plain ordinary

/-- If nothing is in the way and the path of the package ends in a name, the source is written, unless
a directory is at its place. -/
theorem runIn_write_open (source : String) (clear : ¬ world.IsBlocked target.packageDirectory)
    (ends : world.tree.node? (world.placeOf target.packageDirectory) = none →
      EndsInStep (named target.packageDirectory)) :
    ∃ after, (target.write source).runIn world =
        (if world.tree.node? (world.placeOf target.unitPath) = some .directory
          then .error (.ioFailure target.unitPath (.system .isDirectory)) else .ok (), after) ∧
      Placed (world.placeOf target.packageDirectory) (world.placeOf target.unitPath) source world
        after := by
  have walkable := ordinary.walkable_package
  obtain ⟨between, ran, paved⟩ :=
    plain.paves walkable (fun place upper file => clear ⟨place, upper, file⟩) ends
  obtain ⟨name, place, ends_unit⟩ := ordinary.placeOf_unitPath world
  have apart := concat_not_front (world.placeOf target.packageDirectory) name
  have located := (paved.isPlain plain).locateForWriting_eq ordinary.walkable ends_unit
    (by rw [paved.placeOf, place, List.dropLast_concat, paved.node, if_pos List.prefix_rfl])
  rw [paved.placeOf, place, paved.node, if_neg apart] at located
  rw [write, Action.runIn_bind, runIn_makePackage_clear (plain.blockedAt?_of_clear walkable clear), ran]
  dsimp only [Except.mapError]
  rw [Action.runIn_perform, Change.writeFile, located, place]
  rcases plain.tree.cases (world.placeOf target.packageDirectory ++ [name]) with
    found | found | ⟨content, isExecutable, found⟩
  · simp only [found]
    exact ⟨_, rfl, paved.placed (by rw [found]; rfl)⟩
  · simp only [found]
    exact ⟨_, rfl, paved.placed_of_directory found⟩
  · simp only [found]
    exact ⟨_, rfl, paved.placed (by rw [found]; rfl)⟩

/-- A package that is missing is not made if its path ends in a period. -/
theorem runIn_write_unmade (clear : ¬ world.IsBlocked target.packageDirectory)
    (missing : world.tree.node? (world.placeOf target.packageDirectory) = none)
    (period : ¬ EndsInStep (named target.packageDirectory)) :
    ((target.write source).runIn world).1 =
      .error (.ofDisk target.packageDirectory (.system .notFound)) := by
  have walkable := ordinary.walkable_package
  have unmade := plain.not_paved walkable period (fun place upper file => clear ⟨place, upper, file⟩)
    (by simp [missing])
  rw [write, Action.runIn_bind, runIn_makePackage_clear (plain.blockedAt?_of_clear walkable clear),
    unmade]
  rfl

omit plain ordinary

/-- Writing a source touches only its own path. -/
structure WritesAlone (target : Target) (source : String) (world : World) : Prop where
  /-- Of files in the way the one nearest the top is named, and nothing changes. -/
  conflict : world.IsBlocked target.packageDirectory →
    ∃ lower path upper, ancestors target.packageDirectory = lower ++ path :: upper ∧
      world.tree.HasFile (world.placeOf path) ∧
      (∀ above ∈ upper, ¬ world.tree.HasFile (world.placeOf above)) ∧
      (target.write source).runIn world = (.error (.pathConflict path), world)
  made : ¬ world.IsBlocked target.packageDirectory →
    ∀ place, place <+: world.placeOf target.packageDirectory →
      ((target.write source).runIn world).2.tree.node? place = some .directory
  written : ¬ world.IsBlocked target.packageDirectory →
    world.tree.node? (world.placeOf target.unitPath) ≠ some .directory →
      ((target.write source).runIn world).1 = .ok () ∧ ∃ isExecutable,
        ((target.write source).runIn world).2.tree.node? (world.placeOf target.unitPath) =
          some (.file (Text.Utf8.encodeString source) isExecutable)
  occupied : ¬ world.IsBlocked target.packageDirectory →
    world.tree.node? (world.placeOf target.unitPath) = some .directory →
      ((target.write source).runIn world).1 =
          .error (.ioFailure target.unitPath (.system .isDirectory)) ∧
        ((target.write source).runIn world).2.tree.node? (world.placeOf target.unitPath) =
          some .directory
  /-- Nothing off the path is made, changed or removed, what is below a directory in the place of the
  source included. -/
  elsewhere : ChangesIn
    (fun place => place <+: world.placeOf target.packageDirectory ∨
      place = world.placeOf target.unitPath) world ((target.write source).runIn world).2
  again : SameView ((target.write source).runIn world).2
    ((target.write source).runIn ((target.write source).runIn world).2).2

/-- The path of the package goes on behind its last name. With a slash or a period it does not show a
file in its place, and with a period it is not made where it is missing. -/
inductive Overruns (target : Target) (world : World) : Prop
  | hidden (file : world.tree.HasFile (world.placeOf target.packageDirectory))
      (slash : ¬ EndsInStep (steps target.packageDirectory))
  | unmade (clear : ¬ world.IsBlocked target.packageDirectory)
      (missing : world.tree.node? (world.placeOf target.packageDirectory) = none)
      (period : ¬ EndsInStep (named target.packageDirectory))

include plain ordinary

theorem writesAlone_of_blocked (blocked : world.IsBlocked target.packageDirectory)
    (shown : world.tree.HasFile (world.placeOf target.packageDirectory) →
      EndsInStep (steps target.packageDirectory)) : target.WritesAlone source world := by
  obtain ⟨lower, path, upper, split_ancestors, file, topmost, chosen⟩ :=
    plain.blockedAt?_of_blocked ordinary.walkable_package blocked shown
  have ran := runIn_write_blocked source chosen
  refine ⟨fun _ => ⟨lower, path, upper, split_ancestors, file, topmost, ran⟩,
    fun clear => absurd blocked clear, fun clear => absurd blocked clear,
    fun clear => absurd blocked clear, ?_, ?_⟩
  · rw [ran]
    exact .refl _ _
  · rw [ran, ran]
    exact .refl _ _

theorem writesAlone_of_open (clear : ¬ world.IsBlocked target.packageDirectory)
    (ends : world.tree.node? (world.placeOf target.packageDirectory) = none →
      EndsInStep (named target.packageDirectory)) : target.WritesAlone source world := by
  obtain ⟨after, ran, placed⟩ := runIn_write_open plain ordinary source clear ends
  obtain ⟨name, place, -⟩ := ordinary.placeOf_unitPath world
  rw [place] at placed
  have there : after.tree.node? (after.placeOf target.packageDirectory) = some .directory := by
    rw [placed.placeOf]
    exact placed.directory_on_way List.prefix_rfl
  have clear_after : ¬ after.IsBlocked target.packageDirectory := by
    rintro ⟨other, upper, file⟩
    rw [placed.placeOf] at upper
    exact file.ne_directory (placed.directory_on_way upper)
  obtain ⟨twice, ran_twice, placed_twice⟩ := runIn_write_open (placed.isPlain plain) ordinary source
    clear_after fun missing => by simp [there] at missing
  rw [placed.placeOf, placed.placeOf, place] at placed_twice
  have here : after.tree.node? (world.placeOf target.unitPath) =
      some (nodeWritten source (world.tree.node? (world.placeOf target.unitPath))) := by
    rw [place, placed.node, if_pos rfl]
  refine ⟨fun blocked => absurd blocked clear, fun _ other upper => ?_, fun _ leaf => ?_,
    fun _ directory => ?_, ?_, ?_⟩
  all_goals rw [ran]
  · exact placed.directory_on_way upper
  · obtain ⟨isExecutable, file⟩ := nodeWritten_of_leaf leaf source
    rw [if_neg leaf]
    exact ⟨rfl, isExecutable, by rw [here, file]⟩
  · rw [if_pos directory]
    exact ⟨rfl, by rw [here, directory]; rfl⟩
  · rw [place]
    exact placed.changesIn
  · rw [ran_twice]
    exact placed.sameView placed_twice

/-- In a tree of directories and files, writing a source to an ordinary path touches only that path,
unless the path of the package goes on behind its name. -/
theorem writesAlone_iff (source : String) :
    target.WritesAlone source world ↔ ¬ target.Overruns world := by
  constructor
  · rintro alone (⟨file, slash⟩ | ⟨clear, missing, period⟩)
    · obtain ⟨_, path, _, _, _, _, ran⟩ := alone.conflict ⟨_, List.prefix_rfl, file⟩
      have hidden := plain.blockedAt?_of_hidden ordinary.walkable_package file slash
      exact runIn_write_ne_pathConflict hidden path (congrArg Prod.fst ran)
    · obtain ⟨name, place, -⟩ := ordinary.placeOf_unitPath world
      have no_directory : world.tree.node? (world.placeOf target.unitPath) ≠ some .directory := by
        intro found
        have above := plain.tree.closed (world.placeOf target.packageDirectory) name
          (by rw [← place, found]; simp)
        rw [missing] at above
        cases above
      have ran := (alone.written clear no_directory).1
      rw [runIn_write_unmade plain ordinary clear missing period] at ran
      cases ran
  · intro exact_path
    by_cases blocked : world.IsBlocked target.packageDirectory
    · refine writesAlone_of_blocked plain ordinary blocked fun file => ?_
      by_contra slash
      exact exact_path (.hidden file slash)
    · refine writesAlone_of_open plain ordinary blocked fun missing => ?_
      by_contra period
      exact exact_path (.unmade blocked missing period)

omit plain ordinary

section Packages

variable {settings : StubSettings} {root : String} {name : TypeName}

/-- The path of a package ends in its last name. Only the path of the default package does not. -/
theorem endsInStep_packageDirectory (some_root : root ≠ "") (flat : Flat name.packageSegments) :
    EndsInStep (steps (resolve settings root name).packageDirectory) ↔ name.packageSegments ≠ [] := by
  have spelled : (resolve settings root name).packageDirectory =
      join root (ofSegments name.packageSegments) := by
    rw [resolve, packagePath]
  rw [spelled]
  rcases List.eq_nil_or_concat' name.packageSegments with unnamed | ⟨front, last, listed⟩
  · have slash : (join root (ofSegments [])).toList.getLast? = some '/' := by
      rw [join_eq_stem rfl]
      simpa [ofSegments] using getLast?_stem some_root
    rw [unnamed, endsInStep_iff, steps, if_pos (by simp [slash])]
    simp [moves]
  · have member : last ∈ name.packageSegments := by simp [listed]
    have counts := isComponent_of_mem_packageSegments member
    have relative := isAbsolute_eq_false_of_not_mem (flat last member).2
    have front_relative : isAbsolute (ofSegments front) = false := by
      rw [isAbsolute_ofSegments, List.any_eq_false]
      intro segment inside
      have clean := (flat segment (by simp [listed, inside])).2
      simp [isAbsolute_eq_false_of_not_mem clean]
    have ends : ofSegments name.packageSegments = join (ofSegments front) last := by
      rw [listed, ofSegments, List.foldl_append]
      rfl
    rw [ends, ← join_assoc front_relative relative]
    refine iff_of_true ⟨named (join root (ofSegments front)), last, ?_, ?_⟩ (by simp [listed])
    · rw [steps_join_of_flat (flat last member).2 (flat last member).1,
        named_join_of_flat (flat last member).2 (flat last member).1]
    · have whole : last ∈ pieces last := by simp [pieces_of_not_mem (flat last member).2]
      exact moves_of_isComponent whole counts

theorem not_overruns_of_package (some_root : root ≠ "") (flat : Flat name.packageSegments)
    (packaged : name.packageSegments ≠ []) : ¬ (resolve settings root name).Overruns world := by
  have ends := (@endsInStep_packageDirectory settings root name some_root flat).mpr packaged
  rintro (⟨-, slash⟩ | ⟨-, -, period⟩)
  · exact slash ends
  · exact period (steps_eq_named ends ▸ ends)

end Packages

/-- A file in the place of the root is in the way of every package, but only the path of a package
shows it. -/
theorem writesAlone_iff_task :
    let world : World := ⟨⟨[(["out"], .file [] false)]⟩, [], []⟩
    (resolve {} "out" ⟨"a.Task"⟩).WritesAlone "class A {}\n" world ∧
      ¬ (resolve {} "out" ⟨"Task"⟩).WritesAlone "class A {}\n" world := by
  intro world
  have plain : world.IsPlain := ⟨.of_entries (by decide), rfl⟩
  have file : world.tree.HasFile ["out"] := ⟨[], false, rfl⟩
  constructor
  · have ordinary : (resolve {} "out" ⟨"a.Task"⟩).IsOrdinary :=
      ⟨⟨by decide, by decide, by decide, by decide⟩, "TaskImpl.java", by decide, by decide, by decide⟩
    have flat : Flat (TypeName.packageSegments ⟨"a.Task"⟩) := by
      unfold Flat
      decide
    exact (writesAlone_iff plain ordinary _).mpr
      (not_overruns_of_package (by decide) flat (by decide))
  · have ordinary : (resolve {} "out" ⟨"Task"⟩).IsOrdinary :=
      ⟨⟨by decide, by decide, by decide, by decide⟩, "TaskImpl.java", by decide, by decide, by decide⟩
    intro alone
    exact (writesAlone_iff plain ordinary _).mp alone (.hidden file (by decide))

/-- Below a root that is a file the default package is reported as a failure of the disk. -/
theorem not_writesAlone : ¬ ∀ (target : Target) (source : String) (world : World), world.IsPlain →
    target.IsOrdinary → target.WritesAlone source world := by
  intro always
  let world : World := ⟨⟨[(["out"], .file [] false)]⟩, [], []⟩
  have plain : world.IsPlain := ⟨.of_entries (by decide), rfl⟩
  have ordinary : (resolve {} "out" ⟨"Task"⟩).IsOrdinary :=
    ⟨⟨by decide, by decide, by decide, by decide⟩, "TaskImpl.java", by decide, by decide, by decide⟩
  have blocked : world.IsBlocked "out/" := ⟨["out"], by decide, [], false, rfl⟩
  obtain ⟨_, path, _, _, _, _, ran⟩ := (always _ "class A {}\n" world plain ordinary).conflict blocked
  have fails : ((resolve {} "out" ⟨"Task"⟩).write "class A {}\n").runIn world =
      (.error (.ioFailure "out/" (.system .alreadyExists)), world) := by
    decide +kernel
  rw [fails] at ran
  cases ran

end Target

end Stubwright
