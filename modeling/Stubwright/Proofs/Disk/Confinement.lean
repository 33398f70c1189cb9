import Stubwright.Proofs.Disk.Growth

namespace Stubwright.Disk

open Disk.Path

variable {world before between after : World} {path inner : String} {base : Place}
  {last : LastStep} {more : List String} {spot : Spot}

/-- Nothing changes but in one region of the tree. -/
structure ChangesIn (region : Place → Prop) (before after : World) : Prop where
  working : after.workingDirectory = before.workingDirectory
  environment : after.environment = before.environment
  elsewhere : ∀ place, ¬ region place → after.tree.node? place = before.tree.node? place

abbrev ChangesBelow (base : Place) : World → World → Prop :=
  ChangesIn (base <+: ·)

abbrev SameView : World → World → Prop :=
  ChangesIn fun _ => False

namespace ChangesIn

variable {region larger : Place → Prop}

theorem refl (region : Place → Prop) (world : World) : ChangesIn region world world :=
  ⟨rfl, rfl, fun _ _ => rfl⟩

theorem symm (changes : ChangesIn region before after) : ChangesIn region after before :=
  ⟨changes.working.symm, changes.environment.symm,
    fun place apart => (changes.elsewhere place apart).symm⟩

theorem trans (first : ChangesIn region before between) (second : ChangesIn region between after) :
    ChangesIn region before after :=
  ⟨second.working.trans first.working, second.environment.trans first.environment,
    fun place apart => (second.elsewhere place apart).trans (first.elsewhere place apart)⟩

theorem mono (changes : ChangesIn region before after) (inside : ∀ place, region place → larger place) :
    ChangesIn larger before after :=
  ⟨changes.working, changes.environment,
    fun place apart => changes.elsewhere place fun here => apart (inside place here)⟩

theorem put {place : Place} (inside : place ≠ []) (here : region place) (node : Node) :
    ChangesIn region world { world with tree := world.tree.put place node } := by
  refine ⟨rfl, rfl, fun other apart => ?_⟩
  have elsewhere : other ≠ place := by
    rintro rfl
    exact apart here
  rw [Tree.node?_put _ inside, if_neg elsewhere]

theorem remove (base : Place) (world : World) :
    ChangesBelow base world { world with tree := world.tree.remove base } :=
  ⟨rfl, rfl, fun _ apart => Tree.node?_remove_of_not_prefix _ apart⟩

theorem start (changes : ChangesIn region before after) (path : String) :
    after.start path = before.start path :=
  World.start_of_working changes.working path

end ChangesIn

/-- A path leads to a directory, and no link is in it. -/
structure World.Houses (world : World) (path : String) (base : Place) : Prop where
  leads : Leads world.tree .target mostLinks (named path) (world.start path)
    ⟨base, some .directory⟩
  no_link : ∀ other target, base <+: other → world.tree.node? other ≠ some (.link target)

namespace World.Houses

theorem inside (houses : world.Houses path base) (some_more : more ≠ []) (downwards : ".." ∉ more)
    (led : Leads world.tree last mostLinks (named path ++ more) (world.start path) spot) :
    base <+: spot.place := by
  obtain ⟨left, descent⟩ := houses.leads.descends_directory
  obtain ⟨_, place, descentToo, goes_on⟩ := led.descends some_more
  obtain rfl : place = base := descent.unique descentToo
  exact goes_on.stays_below houses.no_link downwards List.prefix_rfl

theorem not_missing {rest : List String} {place : Place} (houses : world.Houses path base)
    (front : named path = named inner ++ rest) :
    ¬ Leads world.tree .entry mostLinks (named inner) (world.start path) ⟨place, none⟩ := by
  intro missing
  obtain ⟨left, descent⟩ := houses.leads.descends_directory
  have entry : ∃ spot, Leads world.tree .entry mostLinks (named inner) (world.start path) spot ∧
      spot.node ≠ none := by
    by_cases ends : rest = []
    · rw [front, ends, List.append_nil] at descent
      exact descent.leads_entry
    · have leads := houses.leads
      rw [front] at leads
      obtain ⟨_, _, upper, -⟩ := leads.descends ends
      exact upper.leads_entry
  obtain ⟨spot, entry, some_node⟩ := entry
  rw [missing.unique entry] at some_node
  exact some_node rfl

theorem makeDirectory (houses : world.Houses path base)
    (absolute : isAbsolute inner = isAbsolute path) (front : named inner <+: named path ++ more)
    (downwards : ".." ∉ more) (made : Change.makeDirectory inner world = .ok after) :
    after.Houses path base ∧ ChangesBelow base world after := by
  have grows := grows_makeDirectory made
  obtain ⟨place, -, leads, rfl⟩ := Change.makeDirectory_ok made
  have some_name := leads.missing.1
  have start : world.start inner = world.start path := World.start_of_absolute world absolute
  rw [start] at leads
  have below : base <+: place := by
    rcases List.prefix_or_prefix_of_prefix front (List.prefix_append _ _) with
      ⟨rest, short⟩ | ⟨rest, long⟩
    · exact absurd leads (houses.not_missing short.symm)
    · rw [← long, List.prefix_append_right_inj] at front
      by_cases ends : rest = []
      · rw [ends, List.append_nil] at long
        have same : named path = named inner ++ [] := by rw [long, List.append_nil]
        exact absurd leads (houses.not_missing same)
      · rw [← long] at leads
        exact houses.inside ends (fun up => downwards (front.subset up)) leads
  refine ⟨⟨?_, ?_⟩, .put some_name below _⟩
  · exact (grows.start path).symm ▸ houses.leads.of_kept grows.kept
  · intro other target inside found
    dsimp only at found
    rw [Tree.node?_put _ some_name] at found
    split at found
    · cases found
    · exact houses.no_link other target inside found

theorem writeFile {content : List UInt8} (houses : world.Houses path base)
    (absolute : isAbsolute inner = isAbsolute path) (names : named inner = named path ++ more)
    (some_more : more ≠ []) (downwards : ".." ∉ more)
    (written : Change.writeFile inner content world = .ok after) :
    ChangesBelow base world after ∧ Leads after.tree .target mostLinks (named path)
      (after.start path) ⟨base, some .directory⟩ := by
  obtain ⟨spot, -, leads, leaf, rfl | ⟨isExecutable, rfl⟩⟩ := Change.writeFile_ok written
  · exact ⟨.refl _ _, houses.leads⟩
  have start : world.start inner = world.start path := World.start_of_absolute world absolute
  have trail : ∃ tail, steps inner = named path ++ tail ∧ tail ≠ [] ∧ ".." ∉ tail := by
    rcases steps_cases inner with short | long
    · exact ⟨more, by rw [short, names], some_more, downwards⟩
    · exact ⟨more ++ ["/"], by rw [long, names, List.append_assoc], by simp, by simp [downwards]⟩
  obtain ⟨tail, trail, some_tail, downwardsToo⟩ := trail
  rw [trail, start] at leads
  have below := houses.inside some_tail downwardsToo leads
  obtain ⟨-, there, stops⟩ := leads.ends_in_name leaf
  have some_name := leads.place_ne_nil leaf
  refine ⟨.put some_name below _, (houses.leads.kept ?_).1 rfl⟩
  intro place node passage found
  have apart : place ≠ spot.place := by
    rintro rfl
    rw [found] at there
    rw [there] at leaf stops
    cases node with
    | directory => exact leaf rfl
    | link target => cases stops
    | _ => exact passage
  dsimp only
  rw [Tree.node?_put _ some_name, if_neg apart, found]

end World.Houses

end Stubwright.Disk
