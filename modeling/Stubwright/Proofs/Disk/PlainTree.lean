import Stubwright.Proofs.Disk.Ladder

namespace Stubwright.Disk

open Disk.Path

def Node.isPlain : Node → Bool
  | .directory | .file .. => true
  | .link _ | .device _ => false

theorem moves_iff {name : String} : moves name = true ↔ ¬ (name = "." ∨ name = "/") := by
  simp [moves]

/-- Steps to be walked: none leads upwards, the system takes every name, and no slash follows the name
of a file that is to be written. -/
structure IsTrail (last : LastStep) (todo : List String) : Prop where
  downwards : ".." ∉ todo
  fits : ∀ name ∈ todo, name.utf8ByteSize ≤ longestName
  slash : last = .written → "/" ∉ todo

namespace IsTrail

variable {last : LastStep} {name : String} {front rest : List String}

theorem right (trail : IsTrail last (front ++ rest)) : IsTrail last rest :=
  ⟨fun up => trail.downwards (List.mem_append_right _ up),
    fun name member => trail.fits name (List.mem_append_right _ member),
    fun written member => trail.slash written (List.mem_append_right _ member)⟩

theorem tail (trail : IsTrail last (name :: rest)) : IsTrail last rest :=
  ⟨fun up => trail.downwards (List.mem_cons_of_mem _ up),
    fun step member => trail.fits step (List.mem_cons_of_mem _ member),
    fun written member => trail.slash written (List.mem_cons_of_mem _ member)⟩

theorem isStep (trail : IsTrail last (name :: rest)) (moving : moves name = true) : IsStep name := by
  refine ⟨moves_iff.mp moving, fun up => ?_, trail.fits name List.mem_cons_self⟩
  exact trail.downwards (by simp [up])

theorem not_lone_slash (trail : IsTrail last (name :: rest)) :
    ¬ (last = .written ∧ rest = ["/"]) := by
  rintro ⟨written, rfl⟩
  exact trail.slash written (by simp)

end IsTrail

namespace Tree

def HasFile (tree : Tree) (place : Place) : Prop :=
  ∃ content isExecutable, tree.node? place = some (.file content isExecutable)

/-- There are no links and no devices, and everything is in directories. -/
structure IsPlain (tree : Tree) : Prop where
  plain : ∀ place node, tree.node? place = some node → node.isPlain
  closed : ∀ place name, tree.node? (place ++ [name]) ≠ none → tree.node? place = some .directory

variable {tree : Tree} {place here : Place} {last : LastStep} {links : Nat} {name : String}
  {todo front rest more : List String}

theorem HasFile.ne_directory (file : tree.HasFile place) : tree.node? place ≠ some .directory := by
  obtain ⟨content, isExecutable, found⟩ := file
  simp [found]

namespace IsPlain

theorem of_entries
    (entries : ∀ entry ∈ tree.entries, entry.2.isPlain ∧ tree.node? entry.1.dropLast = some .directory) :
    tree.IsPlain := by
  have listed {place : Place} {node : Node} (inside : place ≠ [])
      (found : tree.node? place = some node) : (place, node) ∈ tree.entries := by
    rw [node?_of_ne _ inside, List.lookup_eq_some_iff] at found
    obtain ⟨front, back, whole, -⟩ := found
    simp [whole]
  constructor
  · intro place node found
    by_cases inside : place = []
    · subst inside
      cases found
      rfl
    · exact (entries _ (listed inside found)).1
  · intro place name some_node
    obtain ⟨node, found⟩ := Option.ne_none_iff_exists'.mp some_node
    have above := (entries _ (listed (by simp) found)).2
    rwa [List.dropLast_concat] at above

theorem cases (plain : tree.IsPlain) (place : Place) :
    tree.node? place = none ∨ tree.node? place = some .directory ∨ tree.HasFile place := by
  rcases found : tree.node? place with _ | (_ | ⟨content, isExecutable⟩ | _ | _)
  · exact .inl rfl
  · exact .inr (.inl rfl)
  · exact .inr (.inr ⟨content, isExecutable, found⟩)
  all_goals cases plain.plain place _ found

theorem directory_above (plain : tree.IsPlain) (some_more : more ≠ [])
    (some_node : tree.node? (place ++ more) ≠ none) : tree.node? place = some .directory := by
  induction more using List.reverseRecOn with
  | nil => contradiction
  | append_singleton more name ih =>
      rw [← List.append_assoc] at some_node
      have above := plain.closed _ _ some_node
      by_cases ends : more = []
      · rwa [ends, List.append_nil] at above
      · exact ih ends (by simp [above])

theorem eq_none_of_above (plain : tree.IsPlain)
    (stuck : tree.node? place.dropLast ≠ some .directory) : tree.node? place = none := by
  rcases List.eq_nil_or_concat' place with rfl | ⟨above, name, rfl⟩
  · exact absurd rfl stuck
  · rw [List.dropLast_concat] at stuck
    by_contra some_node
    exact stuck (plain.closed above name some_node)

theorem directory_on_way (plain : tree.IsPlain) (upper : here <+: place)
    (directory : tree.node? place = some .directory) : tree.node? here = some .directory := by
  obtain ⟨more, rfl⟩ := upper
  by_cases ends : more = []
  · rwa [ends, List.append_nil] at directory
  · exact plain.directory_above ends (by simp [directory])

/-- Along directories a walk goes on. -/
theorem walk_append (plain : tree.IsPlain) (trail : IsTrail last (front ++ more))
    (directory : tree.node? (here ++ front.filter moves) = some .directory) :
    walk tree last links (front ++ more) here =
      walk tree last links more (here ++ front.filter moves) := by
  induction front generalizing here with
  | nil => rw [List.nil_append, List.filter_nil, List.append_nil]
  | cons name rest ih =>
      rw [List.cons_append] at trail ⊢
      by_cases moving : moves name = true
      · rw [List.filter_cons_of_pos moving, List.append_cons here] at directory ⊢
        have found : tree.node? (here ++ [name]) = some .directory :=
          plain.directory_on_way (List.prefix_append _ _) directory
        rw [walk_step (trail.isStep moving) trail.not_lone_slash, found]
        exact ih trail.tail directory
      · rw [List.filter_cons_of_neg moving] at directory ⊢
        rw [walk_skip (not_not.mp fun still => moving (moves_iff.mpr still))]
        exact ih trail.tail directory

theorem walk_directory (plain : tree.IsPlain) (trail : IsTrail last todo)
    (directory : tree.node? (here ++ todo.filter moves) = some .directory) :
    walk tree last links todo here = .ok ⟨here ++ todo.filter moves, some .directory⟩ := by
  have whole : walk tree last links (todo ++ []) here =
      walk tree last links [] (here ++ todo.filter moves) :=
    plain.walk_append (by rwa [List.append_nil]) directory
  rw [List.append_nil] at whole
  rw [whole, walk_eq, walkUntilLink]

/-- At the first name that is no directory a walk ends, one way or another. -/
theorem walk_halt (plain : tree.IsPlain) (trail : IsTrail last (front ++ name :: rest))
    (moving : moves name = true)
    (directory : tree.node? (here ++ front.filter moves) = some .directory)
    (stuck : tree.node? (here ++ front.filter moves ++ [name]) ≠ some .directory) :
    walk tree last links (front ++ name :: rest) here =
      if rest = [] then
        .ok ⟨here ++ front.filter moves ++ [name], tree.node? (here ++ front.filter moves ++ [name])⟩
      else .error
        (if tree.node? (here ++ front.filter moves ++ [name]) = none then .notFound
          else .notDirectory) := by
  rw [plain.walk_append trail directory,
    walk_step (trail.right.isStep moving) trail.right.not_lone_slash]
  generalize here ++ front.filter moves ++ [name] = place at stuck ⊢
  rcases plain.cases place with found | found | ⟨content, isExecutable, found⟩
  · simp [found]
  · exact absurd found stuck
  · simp [found]

theorem exists_halt (start : tree.node? here = some .directory)
    (stuck : tree.node? (here ++ todo.filter moves) ≠ some .directory) :
    ∃ front name rest, todo = front ++ name :: rest ∧ moves name = true ∧
      tree.node? (here ++ front.filter moves) = some .directory ∧
      tree.node? (here ++ front.filter moves ++ [name]) ≠ some .directory := by
  induction todo generalizing here with
  | nil => exact absurd start (by simpa using stuck)
  | cons name rest ih =>
      by_cases moving : moves name = true
      · rw [List.filter_cons_of_pos moving, List.append_cons here] at stuck
        by_cases found : tree.node? (here ++ [name]) = some .directory
        · obtain ⟨front, stop, more, rfl, moves_stop, directory, halt⟩ := ih found stuck
          refine ⟨name :: front, stop, more, rfl, moves_stop, ?_, ?_⟩
          all_goals rw [List.filter_cons_of_pos moving, List.append_cons here]
          · exact directory
          · exact halt
        · exact ⟨[], name, rest, rfl, moving, by simpa using start, by simpa using found⟩
      · rw [List.filter_cons_of_neg moving] at stuck
        obtain ⟨front, stop, more, rfl, moves_stop, directory, halt⟩ := ih start stuck
        refine ⟨name :: front, stop, more, rfl, moves_stop, ?_, ?_⟩
        all_goals rw [List.filter_cons_of_neg moving]
        · exact directory
        · exact halt

end IsPlain

end Tree

namespace Path

variable {path : String} {name : String}

theorem slash_not_mem_named (path : String) : "/" ∉ named path := fun member =>
  not_mem_of_mem_pieces (mem_pieces_of_mem_named member) (by simp)

theorem steps_eq_named (ends : EndsInStep (steps path)) : steps path = named path := by
  obtain ⟨front, name, whole, moving⟩ := ends
  rcases steps_cases path with short | long
  · exact short
  · rw [whole, List.append_singleton_inj] at long
    rw [long.2] at moving
    cases moving

theorem IsTrim.ends (trim : IsTrim path) : names path = [] ∨ EndsInStep (named path) :=
  trim.imp id fun ends => steps_eq_named ends ▸ ends

theorem IsWalkable.isTrail_steps {last : LastStep} (walkable : IsWalkable path)
    (ends : last = .written → EndsInStep (steps path)) : IsTrail last (steps path) := by
  refine ⟨fun up => ?_, fun name listed => ?_, fun written => ?_⟩
  · rcases mem_steps up with member | slash
    · exact walkable.downwards member
    · exact absurd slash (by decide)
  · rcases mem_steps listed with member | rfl
    · exact walkable.fits name member
    · decide
  · rw [steps_eq_named (ends written)]
    exact slash_not_mem_named path

theorem IsWalkable.isTrail_named {last : LastStep} (walkable : IsWalkable path) :
    IsTrail last (named path) :=
  ⟨fun up => walkable.downwards (mem_pieces_of_mem_named up),
    fun name listed => walkable.fits name (mem_pieces_of_mem_named listed),
    fun _ => slash_not_mem_named path⟩

end Path

namespace World

variable {world : World} {path : String}

/-- The place that the names of a path spell out. -/
def placeOf (world : World) (path : String) : Place :=
  world.start path ++ names path

structure IsPlain (world : World) : Prop where
  tree : world.tree.IsPlain
  working : world.tree.node? world.workingDirectory = some .directory

namespace IsPlain

theorem start (plain : world.IsPlain) (path : String) :
    world.tree.node? (world.start path) = some .directory := by
  rw [World.start]
  split
  · exact Tree.node?_root _
  · exact plain.working

section Steps

variable {last : LastStep} {todo front rest : List String} {name : String}

theorem walkFrom_directory (plain : world.IsPlain) (usable : IsUsable path)
    (trail : IsTrail last todo) (spelled : todo.filter moves = names path)
    (directory : world.tree.node? (world.placeOf path) = some .directory) :
    world.walkFrom last path todo = .ok ⟨world.placeOf path, some .directory⟩ := by
  rw [placeOf, ← spelled] at directory ⊢
  rw [walkFrom_of_usable usable, plain.tree.walk_directory trail directory]
  rfl

theorem walkFrom_halt (plain : world.IsPlain) (usable : IsUsable path)
    (trail : IsTrail last (front ++ name :: rest)) (moving : moves name = true)
    (directory : world.tree.node? (world.start path ++ front.filter moves) = some .directory)
    (stuck : world.tree.node? (world.start path ++ front.filter moves ++ [name]) ≠ some .directory) :
    world.walkFrom last path (front ++ name :: rest) =
      if rest = [] then .ok ⟨world.start path ++ front.filter moves ++ [name],
        world.tree.node? (world.start path ++ front.filter moves ++ [name])⟩
      else .error (.system
        (if world.tree.node? (world.start path ++ front.filter moves ++ [name]) = none then .notFound
          else .notDirectory)) := by
  rw [walkFrom_of_usable usable,
    plain.tree.walk_halt trail moving directory stuck]
  split <;> rfl

theorem placeOf_of_ends (world : World) (spelled : (front ++ [name]).filter moves = names path)
    (moving : moves name = true) :
    world.placeOf path = world.start path ++ front.filter moves ++ [name] := by
  have alone : [name].filter moves = [name] := List.filter_cons_of_pos moving
  rw [placeOf, ← spelled, List.filter_append, alone, List.append_assoc]

theorem walkFrom_ends (plain : world.IsPlain) (usable : IsUsable path)
    (trail : IsTrail last todo) (spelled : todo.filter moves = names path)
    (ends : EndsInStep todo)
    (above : world.tree.node? (world.placeOf path).dropLast = some .directory) :
    world.walkFrom last path todo =
      .ok ⟨world.placeOf path, world.tree.node? (world.placeOf path)⟩ := by
  by_cases directory : world.tree.node? (world.placeOf path) = some .directory
  · rw [directory]
    exact plain.walkFrom_directory usable trail spelled directory
  · obtain ⟨front, name, rfl, moving⟩ := ends
    have place := placeOf_of_ends world spelled moving
    rw [place] at directory above ⊢
    rw [List.dropLast_concat] at above
    rw [plain.walkFrom_halt usable trail moving above directory, if_pos rfl]

theorem walkFrom_short (plain : world.IsPlain) (usable : IsUsable path)
    (trail : IsTrail last todo) (spelled : todo.filter moves = names path)
    (stuck : world.tree.node? (world.placeOf path) ≠ some .directory)
    (short : ¬ EndsInStep todo ∨
      world.tree.node? (world.placeOf path).dropLast ≠ some .directory) :
    ∃ place, place <+: world.placeOf path ∧ world.tree.node? place ≠ some .directory ∧
      world.walkFrom last path todo = .error (.system
        (if world.tree.node? place = none then .notFound else .notDirectory)) := by
  have stuck_walk := stuck
  rw [placeOf, ← spelled] at stuck_walk
  obtain ⟨front, name, rest, rfl, moving, directory, halt⟩ :=
    Tree.IsPlain.exists_halt (plain.start path) stuck_walk
  have some_rest : rest ≠ [] := by
    rintro rfl
    rcases short with endless | above
    · exact endless ⟨front, name, rfl, moving⟩
    · rw [placeOf_of_ends world spelled moving, List.dropLast_concat] at above
      exact above directory
  refine ⟨_, ?_, halt, ?_⟩
  · rw [placeOf, ← spelled, List.filter_append, List.filter_cons_of_pos moving, ← List.append_assoc,
      List.append_cons _ name (rest.filter moves)]
    exact List.prefix_append _ _
  · rw [plain.walkFrom_halt usable trail moving directory halt, if_neg some_rest]

end Steps

section Paths

variable (plain : world.IsPlain) (walkable : IsWalkable path)
include plain walkable

theorem nodeAt?_of_directory (filled : path ≠ "")
    (directory : world.tree.node? (world.placeOf path) = some .directory) :
    world.nodeAt? path = some .directory := by
  have located : world.locate path = .ok ⟨world.placeOf path, some .directory⟩ :=
    plain.walkFrom_directory (walkable.usable filled) (walkable.isTrail_steps (by simp))
      (filter_steps path)
      directory
  rw [nodeAt?, located]

theorem nodeAt?_of_isTrim (filled : path ≠ "") (trim : IsTrim path) :
    world.nodeAt? path = world.tree.node? (world.placeOf path) := by
  by_cases directory : world.tree.node? (world.placeOf path) = some .directory
  · rw [plain.nodeAt?_of_directory walkable filled directory, directory]
  have ends : EndsInStep (steps path) := by
    refine trim.resolve_left fun nothing => directory ?_
    rw [placeOf, nothing, List.append_nil]
    exact plain.start path
  by_cases above : world.tree.node? (world.placeOf path).dropLast = some .directory
  · have located : world.locate path = .ok ⟨world.placeOf path, world.tree.node? (world.placeOf path)⟩ :=
      plain.walkFrom_ends (walkable.usable filled) (walkable.isTrail_steps (by simp))
        (filter_steps path) ends above
    rw [nodeAt?, located]
  · obtain ⟨place, -, -, located⟩ : ∃ place, _ ∧ _ ∧ world.locate path = _ :=
      plain.walkFrom_short (walkable.usable filled) (walkable.isTrail_steps (by simp))
        (filter_steps path)
        directory (.inr above)
    rw [nodeAt?, located]
    exact (plain.tree.eq_none_of_above above).symm

theorem nodeAt?_of_not_endsInStep (filled : path ≠ "") (endless : ¬ EndsInStep (steps path))
    (stuck : world.tree.node? (world.placeOf path) ≠ some .directory) : world.nodeAt? path = none := by
  obtain ⟨place, -, -, located⟩ : ∃ place, _ ∧ _ ∧ world.locate path = _ :=
    plain.walkFrom_short (walkable.usable filled) (walkable.isTrail_steps (by simp)) (filter_steps path)
      stuck (.inl endless)
  rw [nodeAt?, located]

theorem makeDirectory_of_directory (filled : path ≠ "")
    (directory : world.tree.node? (world.placeOf path) = some .directory) :
    Change.makeDirectory path world = .error (.system .alreadyExists) := by
  have located : world.locateEntry path = .ok ⟨world.placeOf path, some .directory⟩ :=
    plain.walkFrom_directory (walkable.usable filled) walkable.isTrail_named (filter_named path)
      directory
  rw [Change.makeDirectory, located]

theorem makeDirectory_of_ends (filled : path ≠ "") (ends : EndsInStep (named path))
    (above : world.tree.node? (world.placeOf path).dropLast = some .directory)
    (missing : world.tree.node? (world.placeOf path) = none) :
    Change.makeDirectory path world =
      .ok { world with tree := world.tree.put (world.placeOf path) .directory } := by
  have located :
      world.locateEntry path = .ok ⟨world.placeOf path, world.tree.node? (world.placeOf path)⟩ :=
    plain.walkFrom_ends (walkable.usable filled) walkable.isTrail_named (filter_named path) ends above
  rw [missing] at located
  rw [Change.makeDirectory, located]

theorem makeDirectory_of_short (filled : path ≠ "")
    (clear : ∀ place, place <+: world.placeOf path → ¬ world.tree.HasFile place)
    (missing : world.tree.node? (world.placeOf path) = none)
    (short : ¬ EndsInStep (named path) ∨
      world.tree.node? (world.placeOf path).dropLast ≠ some .directory) :
    Change.makeDirectory path world = .error (.system .notFound) := by
  have stuck : world.tree.node? (world.placeOf path) ≠ some .directory := by simp [missing]
  obtain ⟨place, upper, halt, located⟩ : ∃ place, _ ∧ _ ∧ world.locateEntry path = _ :=
    plain.walkFrom_short (walkable.usable filled) walkable.isTrail_named (filter_named path)
      stuck short
  have nothing : world.tree.node? place = none := by
    rcases plain.tree.cases place with none_here | directory | file
    · exact none_here
    · exact absurd directory halt
    · exact absurd file (clear place upper)
  rw [Change.makeDirectory, located, if_pos nothing]

theorem locateForWriting_eq (ends : EndsInStep (steps path))
    (above : world.tree.node? (world.placeOf path).dropLast = some .directory) :
    world.locateForWriting path =
      .ok ⟨world.placeOf path, world.tree.node? (world.placeOf path)⟩ := by
  have filled : path ≠ "" := by
    rintro rfl
    obtain ⟨front, name, whole, -⟩ := ends
    have no_steps : steps "" = [] := by decide
    simp [no_steps] at whole
  exact plain.walkFrom_ends (walkable.usable filled) (walkable.isTrail_steps fun _ => ends)
    (filter_steps path) ends above

end Paths

end IsPlain

end World

end Stubwright.Disk
