import Stubwright.Proofs.Disk.Confinement

namespace Stubwright.Disk

open Disk.Path

variable {names : Names} {world : World} {directory start stop path : String} {last : LastStep}
  {spot : Spot}
  {place : Place}

/-- Nothing is at a path, which leads there whatever its last step is taken for. -/
structure World.LeadsFresh (world : World) (path : String) (place : Place) : Prop where
  inside : place ≠ []
  free : world.tree.IsFree place
  leads : ∀ last, Leads world.tree last mostLinks (named path) (world.start path) ⟨place, none⟩
  steps : steps path = named path

theorem World.LeadsFresh.missing (fresh : world.LeadsFresh path place) :
    world.tree.node? place = none :=
  fresh.free.node?_eq_none fresh.inside List.prefix_rfl

structure IsName (name : String) : Prop where
  flat : '/' ∉ name.toList
  more : ∃ c ∈ name.toList, c ≠ '.'

namespace IsName

variable {name : String}

theorem ne_empty (isName : IsName name) : name ≠ "" := by
  rintro rfl
  obtain ⟨c, member, -⟩ := isName.more
  simp at member

theorem isStill_eq_false (isName : IsName name) : ¬ (name = "." ∨ name = "/") := by
  rintro (rfl | rfl)
  · obtain ⟨c, member, other⟩ := isName.more
    exact other (by simpa using member)
  · exact isName.flat (by simp)

theorem ne_upwards (isName : IsName name) : name ≠ ".." := by
  rintro rfl
  obtain ⟨c, member, other⟩ := isName.more
  exact other (by simpa using member)

theorem named_join (isName : IsName name) (directory : String) :
    named (join directory name) = named directory ++ [name] :=
  named_join_of_flat isName.flat isName.ne_empty directory

theorem steps_join (isName : IsName name) (directory : String) :
    steps (join directory name) = named (join directory name) :=
  steps_join_of_flat isName.flat isName.ne_empty directory

theorem start_join (isName : IsName name) (world : World) (directory : String) :
    world.start (join directory name) = world.start directory := by
  refine World.start_of_absolute world ?_
  rw [isAbsolute_join, isAbsolute_eq_false_of_not_mem isName.flat, Bool.or_false]

theorem fileName?_join (isName : IsName name) {directory : String} (filled : directory ≠ "") :
    fileName? (join directory name) = some name := by
  have counts : isComponent name = true := by
    have apart : name ≠ "." := fun still => isName.isStill_eq_false (.inl still)
    simp [isComponent, isName.ne_empty, apart]
  have relative := isAbsolute_eq_false_of_not_mem isName.flat
  have last : (components (join directory name)).getLast? = some name := by
    rw [components_join filled relative, pieces_of_not_mem isName.flat,
      List.filter_cons_of_pos counts, List.filter_nil, List.getLast?_concat]
  have ordinary : ¬ ((name = "/" ∨ name = ".") ∨ name = "..") := by
    rintro ((slash | still) | upwards)
    · exact isName.isStill_eq_false (.inr slash)
    · exact isName.isStill_eq_false (.inl still)
    · exact isName.ne_upwards upwards
  rw [fileName?, last]
  exact if_neg (by simpa using ordinary)

end IsName

theorem isName_freshName (slashStart : '/' ∉ start.toList) (slashStop : '/' ∉ stop.toList)
    (dash : '-' ∈ start.toList) (names : Names) (tree : Tree) (place : Place) :
    IsName (freshName names tree place start stop) := by
  have flat := names.flat (tree.namesBelow place) start stop
  rw [freshName]
  constructor
  · simp [slashStart, slashStop, flat]
  · exact ⟨'-', by simp [dash], by decide⟩

theorem IsUsable.of_join {name : String} (usable : IsUsable (join directory name))
    (isName : IsName name) (filled : directory ≠ "") : IsUsable directory := by
  have joined : join directory name = stem directory ++ name :=
    join_eq_stem (isAbsolute_eq_false_of_not_mem isName.flat)
  have front : ∃ tail, stem directory = directory ++ tail := by
    rw [stem]
    split
    · exact ⟨"", String.append_empty.symm⟩
    · exact ⟨"/", rfl⟩
  obtain ⟨tail, front⟩ := front
  rw [joined, front] at usable
  refine ⟨filled, fun zero => usable.zero (by simp [zero]), ?_⟩
  have short := usable.short
  rw [String.utf8ByteSize_append, String.utf8ByteSize_append] at short
  omega

theorem locate_of_descends {left : Nat} (usable : IsUsable path)
    (descent : Descends world.tree mostLinks (named path) (world.start path) left place) :
    world.locate path = .ok ⟨place, some .directory⟩ := by
  refine World.locate_eq_ok.mpr ⟨usable, ?_⟩
  rcases steps_cases path with short | long
  · rw [short]
    exact descent.leads_target
  · rw [long]
    exact descent.leads (by simp) (by simp) (.skip (.inr rfl) .here)

theorem exists_descent_of_locate (located : world.locate path = .ok ⟨place, some .directory⟩) :
    ∃ left, Descends world.tree mostLinks (named path) (world.start path) left place := by
  obtain ⟨-, leads⟩ := World.locate_eq_ok.mp located
  rcases steps_cases path with short | long
  · rw [short] at leads
    exact leads.descends_directory
  · rw [long] at leads
    obtain ⟨left, above, descent, goes_on⟩ := leads.descends (List.cons_ne_nil _ _)
    obtain rfl : place = above := by
      have ends : Leads world.tree .target left ["/"] above ⟨above, some .directory⟩ :=
        .skip (.inr rfl) .here
      exact congrArg Spot.place (ends.unique goes_on)
    exact ⟨left, descent⟩

/-- A fresh path ends in a name that is fresh in its directory, if that can be found. -/
theorem freshPath_eq (names : Names) (world : World) (directory start stop : String) :
    ∃ place, freshPath names world directory start stop =
        join directory (freshName names world.tree place start stop) ∧
      ∀ above, world.locate directory = .ok ⟨above, some .directory⟩ → place = above := by
  rw [freshPath]
  cases world.locate directory with
  | error fault => exact ⟨[], rfl, fun _ located => by cases located⟩
  | ok spot =>
      refine ⟨spot.place, rfl, fun above located => ?_⟩
      rw [Except.ok.inj located]

theorem steps_freshPath (slashStart : '/' ∉ start.toList) (slashStop : '/' ∉ stop.toList)
    (dash : '-' ∈ start.toList) (names : Names) (world : World) (directory : String) :
    steps (freshPath names world directory start stop) =
      named (freshPath names world directory start stop) := by
  obtain ⟨place, spelled, -⟩ := freshPath_eq names world directory start stop
  rw [spelled]
  exact (isName_freshName slashStart slashStop dash names world.tree place).steps_join directory

theorem leadsFresh_freshPath (slashStart : '/' ∉ start.toList) (slashStop : '/' ∉ stop.toList)
    (dash : '-' ∈ start.toList) (filled : directory ≠ "")
    (usable : IsUsable (freshPath names world directory start stop))
    (led : Leads world.tree last mostLinks (named (freshPath names world directory start stop))
      (world.start (freshPath names world directory start stop)) spot) :
    ∃ place, world.LeadsFresh (freshPath names world directory start stop) place ∧
      spot = ⟨place, none⟩ := by
  let name (place : Place) := freshName names world.tree place start stop
  have isName (place : Place) : IsName (name place) :=
    isName_freshName slashStart slashStop dash names world.tree place
  obtain ⟨chosen, spelled, sees⟩ := freshPath_eq names world directory start stop
  rw [spelled] at usable led ⊢
  have spelling := (isName chosen).named_join directory
  have starts := (isName chosen).start_join world directory
  have walked := led
  rw [spelling, starts] at walked
  obtain ⟨left, above, descent, goes_on⟩ := walked.descends (List.cons_ne_nil _ _)
  obtain rfl := sees above (locate_of_descends (usable.of_join (isName chosen) filled) descent)
  have free : world.tree.IsFree (chosen ++ [name chosen]) := isFree_freshName _ _ _ _ _
  have missing : world.tree.node? (chosen ++ [name chosen]) = none :=
    free.node?_eq_none (by simp) List.prefix_rfl
  have notSlash : ¬ [name chosen] = ["/"] := by
    intro same
    exact (isName chosen).isStill_eq_false (.inr (List.cons.inj same).1)
  obtain ⟨step, rfl⟩ :=
    goes_on.only_step (isName chosen).isStill_eq_false (isName chosen).ne_upwards missing
  refine ⟨_, ⟨by simp, free, fun last => ?_, (isName chosen).steps_join directory⟩, rfl⟩
  rw [spelling, starts]
  refine descent.leads (by simp) (fun both => notSlash both.2) ?_
  have stops : last.stopsAt (world.tree.node? (chosen ++ [name chosen])) := by
    rw [missing]
    trivial
  exact missing ▸ Leads.stop step stops

end Stubwright.Disk
