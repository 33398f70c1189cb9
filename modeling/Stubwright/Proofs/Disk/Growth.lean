import Stubwright.Proofs.Disk.Action
import Stubwright.Proofs.Disk.Change

namespace Stubwright.Disk

open Disk.Path

variable {world before between after : World} {path directory unseen : String} {last : LastStep}
  {links : Nat} {todo : List String} {here : Place} {spot : Spot} {node : Node}

/-- Nothing but directories is new, and nothing is gone. -/
structure Grows (before after : World) : Prop where
  working : after.workingDirectory = before.workingDirectory
  environment : after.environment = before.environment
  kept : ∀ place node, before.tree.node? place = some node → after.tree.node? place = some node
  added : ∀ place, before.tree.node? place = none →
    after.tree.node? place = none ∨ after.tree.node? place = some .directory

namespace Grows

theorem refl (world : World) : Grows world world :=
  ⟨rfl, rfl, fun _ _ found => found, fun _ missing => .inl missing⟩

theorem trans (first : Grows before between) (second : Grows between after) :
    Grows before after := by
  refine ⟨second.working.trans first.working, second.environment.trans first.environment,
    fun place node found => second.kept _ _ (first.kept _ _ found), fun place missing => ?_⟩
  rcases first.added place missing with still | directory
  · exact second.added place still
  · exact .inr (second.kept _ _ directory)

theorem start (grows : Grows before after) (path : String) :
    after.start path = before.start path :=
  World.start_of_working grows.working path

end Grows

theorem grows_makeDirectory (made : Change.makeDirectory path before = .ok after) :
    Grows before after := by
  obtain ⟨place, -, leads, rfl⟩ := Change.makeDirectory_ok made
  obtain ⟨inside, missing⟩ := leads.missing
  refine ⟨rfl, rfl, fun other node found => Tree.node?_put_of_some inside missing found,
    fun other absent => ?_⟩
  rw [Tree.node?_put _ inside]
  split
  · exact .inr rfl
  · exact .inl absent

/-- A directory that was not made changes nothing, whether it is there or not. -/
theorem runIn_unlessDirectory (path : String) (fault : Fault) (world : World) :
    (Action.runIn (do if (← get).isDirectory path then pure () else throw fault :
      Action Fault Unit) world).2 = world := by
  rw [Action.runIn_get_bind]
  split <;> rfl

/-- What every new directory preserves, making directories preserves. -/
theorem makeDirectoriesAlong_preserves (holds : World → Prop) {paths : List String}
    (step : ∀ path ∈ paths, path ≠ "" → ∀ before after, holds before →
      Change.makeDirectory path before = .ok after → holds after) (start : holds world) :
    holds ((makeDirectoriesAlong paths).runIn world).2 := by
  induction paths generalizing world with
  | nil => exact start
  | cons path above ih =>
      have stepAbove := fun other member => step other (List.mem_cons_of_mem path member)
      have stepHere := step path List.mem_cons_self
      rw [makeDirectoriesAlong]
      split
      · exact start
      rename_i filled
      have some_path : path ≠ "" := by simpa using filled
      rw [Action.runIn_get_bind]
      split
      · rename_i after made
        exact stepHere some_path world after start made
      · have upwards := ih stepAbove start
        rw [Action.runIn_bind]
        rcases ran : (makeDirectoriesAlong above).runIn world with ⟨result, between⟩
        rw [ran] at upwards
        cases result with
        | error fault => exact upwards
        | ok done =>
            dsimp only
            rw [Action.runIn_get_bind]
            split
            · rename_i after made
              exact stepHere some_path between after upwards made
            · rw [runIn_unlessDirectory]
              exact upwards
      · rw [runIn_unlessDirectory]
        exact start

theorem grows_makeDirectories (path : String) (world : World) :
    Grows world ((makeDirectories path).runIn world).2 :=
  makeDirectoriesAlong_preserves (Grows world)
    (fun _ _ _ _ _ grows made => grows.trans (grows_makeDirectory made)) (.refl world)

/-- As far as one name is not on the way, everything is in directories, and no path leads to the
name by itself. -/
structure World.InOrder (world : World) (unseen : String) : Prop where
  hides : world.tree.Hides unseen
  notWorking : unseen ∉ world.workingDirectory
  working : world.tree.node? world.workingDirectory = some .directory
  closed : ∀ place name rest, unseen ∉ place ++ name :: rest →
    world.tree.node? (place ++ name :: rest) ≠ none → world.tree.node? place = some .directory

namespace World.InOrder

variable {place : Place}

theorem start (order : world.InOrder unseen) (path : String) :
    unseen ∉ world.start path ∧ world.tree.node? (world.start path) = some .directory := by
  rw [World.start]
  split
  · exact ⟨List.not_mem_nil, Tree.node?_root _⟩
  · exact ⟨order.notWorking, order.working⟩

theorem directory_above (order : world.InOrder unseen) {above other : Place} {name first : String}
    {rest : List String} (directory : world.tree.node? above = some .directory)
    (clean : unseen ∉ other ++ first :: rest) (same : other ++ first :: rest = above ++ [name]) :
    world.tree.node? other = some .directory := by
  rcases List.eq_nil_or_concat' rest with rfl | ⟨front, stop, rfl⟩
  · rw [List.append_singleton_inj] at same
    exact same.1 ▸ directory
  · have whole : other ++ first :: front ++ [stop] = above ++ [name] := by
      rw [← same]
      simp
    rw [List.append_singleton_inj] at whole
    have cleanAbove : unseen ∉ other ++ first :: front := fun member => clean (by
      simp only [List.mem_append, List.mem_cons] at member ⊢
      tauto)
    exact order.closed other first front cleanAbove (by rw [whole.1, directory]; simp)

theorem node?_inside_eq_none (order : world.InOrder unseen) {name : String}
    (missing : world.tree.node? place = none) (clean : unseen ∉ place) (other : unseen ≠ name) :
    world.tree.node? (place ++ [name]) = none := by
  by_contra some_node
  simp [order.closed place name [] (by simp [clean, other]) some_node] at missing

theorem ends_inside (order : world.InOrder unseen)
    (led : Leads world.tree last links todo here spot) (leaf : spot.node ≠ some .directory)
    (notAhead : unseen ∉ todo) (notHere : unseen ∉ here)
    (directory : world.tree.node? here = some .directory) :
    ∃ above name, spot.place = above ++ [name] ∧ world.tree.node? above = some .directory := by
  induction led with
  | here => exact absurd rfl leaf
  | skip _ _ ih =>
      exact ih leaf (fun later => notAhead (List.mem_cons_of_mem _ later)) notHere directory
  | @up links rest here spot _ ih =>
      refine ih leaf (fun later => notAhead (List.mem_cons_of_mem _ later))
        (fun member => notHere (List.dropLast_subset _ member)) ?_
      rcases List.eq_nil_or_concat' here with rfl | ⟨above, name, rfl⟩
      · exact directory
      · rw [List.dropLast_concat]
        exact order.closed above name [] notHere (by simp [directory])
  | @down links name rest here spot step slash found _ ih =>
      rw [List.mem_cons, not_or] at notAhead
      exact ih leaf notAhead.2 (by simp [notHere, notAhead.1]) found
  | @follow links name target rest here spot step slash found through _ ih =>
      rw [List.mem_cons, not_or] at notAhead
      have clean : unseen ∉ here ++ [name] := by simp [notHere, notAhead.1]
      have notInTarget := order.hides.not_mem_steps clean found
      refine ih leaf (by simp [notInTarget, notAhead.2]) ?_ ?_
      · split
        · exact List.not_mem_nil
        · exact notHere
      · split
        · exact Tree.node?_root _
        · exact directory
  | @stop links name here _ _ => exact ⟨here, name, rfl, directory⟩

theorem makeDirectory (order : world.InOrder unseen) (notAhead : unseen ∉ named path)
    (made : Change.makeDirectory path world = .ok after) : after.InOrder unseen := by
  obtain ⟨place, -, leads, rfl⟩ := Change.makeDirectory_ok made
  obtain ⟨notStart, startDirectory⟩ := order.start path
  obtain ⟨some_name, missing⟩ := leads.missing
  obtain ⟨above, name, inside, aboveDirectory⟩ :=
    order.ends_inside leads (by simp) notAhead notStart startDirectory
  dsimp only at inside
  have changed (other : Place) : (world.tree.put place .directory).node? other =
      if other = place then some .directory else world.tree.node? other :=
    Tree.node?_put _ some_name _ _
  have kept {other : Place} {node : Node} (found : world.tree.node? other = some node) :
      (world.tree.put place .directory).node? other = some node :=
    Tree.node?_put_of_some some_name missing found
  refine ⟨⟨order.hides.slash, fun other target clean found => ?_⟩, order.notWorking,
    kept order.working, fun other first rest clean some_node => ?_⟩
  · dsimp only at found
    rw [changed] at found
    split at found
    · cases found
    · exact order.hides.links other target clean found
  · dsimp only at some_node ⊢
    -- Above the new directory stands its parent, and whatever was above the parent before.
    by_cases same : other ++ first :: rest = place
    · exact kept (order.directory_above aboveDirectory clean (same.trans inside))
    · rw [changed, if_neg same] at some_node
      exact kept (order.closed other first rest clean some_node)

end World.InOrder

theorem World.InOrder.of_flat (slash : unseen ≠ "/") (working : world.workingDirectory = [])
    (flat : ∀ entry ∈ world.tree.entries, entry.1.length = 1 ∧ ∀ target, entry.2 ≠ .link target) :
    world.InOrder unseen := by
  have listed {place : Place} {node : Node} (inside : place ≠ [])
      (found : world.tree.node? place = some node) : (place, node) ∈ world.tree.entries := by
    rw [Tree.node?_of_ne _ inside, List.lookup_eq_some_iff] at found
    obtain ⟨front, back, whole, -⟩ := found
    simp [whole]
  refine ⟨⟨slash, fun place target _ found => ?_⟩, by simp [working], by rw [working]; rfl,
    fun place name rest _ some_node => ?_⟩
  · cases place with
    | nil => cases found
    | cons name rest =>
        exact absurd rfl ((flat _ (listed (List.cons_ne_nil name rest) found)).2 target)
  · obtain ⟨node, found⟩ := Option.ne_none_iff_exists'.mp some_node
    have short := (flat _ (listed (by simp) found)).1
    have top : place = [] := by
      rw [← List.length_eq_zero_iff]
      simp only [List.length_append, List.length_cons] at short
      omega
    rw [top]
    rfl

theorem Grows.link_before {place : Place} {target : String} (grows : Grows before after)
    (found : after.tree.node? place = some (.link target)) :
    before.tree.node? place = some (.link target) := by
  cases there : before.tree.node? place with
  | none =>
      rcases grows.added place there with missing | directory
      · rw [missing] at found
        cases found
      · rw [directory] at found
        cases found
  | some node => rwa [grows.kept place node there] at found

theorem Grows.hides (grows : Grows before after) (hides : before.tree.Hides unseen) :
    after.tree.Hides unseen :=
  ⟨hides.slash, fun place target clean found =>
    hides.links place target clean (grows.link_before found)⟩

/-- What stands at a path; nothing if the path cannot be followed to its end. -/
def World.standsAt (world : World) (path : String) : Option Node :=
  match world.locateEntry path with
  | .ok spot => spot.node
  | .error _ => none

theorem World.standsAt_eq_some : world.standsAt path = some node ↔
    IsUsable path ∧ ∃ place,
      Leads world.tree .entry mostLinks (named path) (world.start path) ⟨place, some node⟩ := by
  rw [standsAt]
  constructor
  · intro stands
    split at stands
    · rename_i spot located
      obtain ⟨usable, leads⟩ := locateEntry_eq_ok.mp located
      exact ⟨usable, spot.place, stands ▸ leads⟩
    · cases stands
  · rintro ⟨usable, place, leads⟩
    rw [locateEntry_eq_ok.mpr ⟨usable, leads⟩]

theorem readFile_of_kept {content : List UInt8}
    (kept : ∀ place node, before.tree.node? place = some node → after.tree.node? place = some node)
    (start : after.start path = before.start path) (readable : before.readFile path = .ok content) :
    after.readFile path = .ok content := by
  have located {place : Place} {node : Node} (found : before.locate path = .ok ⟨place, some node⟩) :
      after.locate path = .ok ⟨place, some node⟩ := by
    obtain ⟨usable, leads⟩ := World.locate_eq_ok.mp found
    exact World.locate_eq_ok.mpr ⟨usable, start ▸ leads.of_kept kept⟩
  rw [World.readFile] at readable
  split at readable
  · cases readable
  · rename_i found
    rw [World.readFile, located found]
    exact readable
  · rename_i found
    rw [World.readFile, located found]
    exact readable
  · cases readable
  · cases readable

theorem Grows.standsAt_eq_some (grows : Grows before after)
    (stands : before.standsAt path = some node) : after.standsAt path = some node := by
  obtain ⟨usable, place, leads⟩ := World.standsAt_eq_some.mp stands
  exact World.standsAt_eq_some.mpr ⟨usable, place, (grows.start path).symm ▸ leads.of_kept grows.kept⟩

theorem Path.StandsAbove.start_eq {above : String} (upper : StandsAbove above path) (world : World) :
    world.start path = world.start above :=
  World.start_of_absolute world upper.absolute.symm

theorem Path.StandsAbove.standsAt_eq_none {above : String} {place : Place}
    (upper : StandsAbove above path)
    (leads : Leads world.tree .entry mostLinks (named above) (world.start above) ⟨place, none⟩) :
    world.standsAt path = none := by
  obtain ⟨more, names, component, member, -⟩ := upper.names
  rw [Option.eq_none_iff_forall_ne_some]
  intro node stands
  obtain ⟨-, other, leadsToo⟩ := World.standsAt_eq_some.mp stands
  rw [names, upper.start_eq] at leadsToo
  obtain ⟨_, _, descent, -⟩ := leadsToo.descends (List.ne_nil_of_mem member)
  obtain ⟨spot, entry, some_node⟩ := descent.leads_entry
  rw [leads.unique entry] at some_node
  exact some_node rfl

/-- The directory that is made there is empty, so nothing stands at the path even then. -/
theorem World.InOrder.standsAt_made {above : String} (order : world.InOrder unseen)
    (upper : StandsAbove above path) (downwards : ".." ∉ pieces path) (hidden : unseen ∉ pieces path)
    (made : Change.makeDirectory above world = .ok after) :
    world.standsAt path = none ∧ after.standsAt path = none := by
  obtain ⟨place, -, leads, rfl⟩ := Change.makeDirectory_ok made
  obtain ⟨more, names, component, member, counts⟩ := upper.names
  obtain ⟨inside, missing⟩ := leads.missing
  have piece_of {name : String} (inMore : name ∈ more) : name ∈ pieces path :=
    mem_pieces_of_mem_named (names ▸ List.mem_append_right _ inMore)
  have notAhead : unseen ∉ named above := fun ahead => hidden (upper.named_subset ahead)
  refine ⟨upper.standsAt_eq_none leads, ?_⟩
  rw [Option.eq_none_iff_forall_ne_some]
  intro node stands
  obtain ⟨-, other, leadsToo⟩ := World.standsAt_eq_some.mp stands
  have start : World.start { world with tree := world.tree.put place .directory } path =
      world.start above := upper.start_eq world
  rw [names, start] at leadsToo
  obtain ⟨_, descent⟩ := leads.descends_made
  obtain ⟨_, stop, descentToo, below⟩ := leadsToo.descends (List.ne_nil_of_mem member)
  obtain rfl : stop = place := descent.unique descentToo
  have clean := (leads.unseen order.hides (fun _ _ => rfl) notAhead (order.start above).1).2
  have empty : ∀ name ∈ more, (world.tree.put stop .directory).node? (stop ++ [name]) = none := by
    intro name inMore
    have apart : stop ++ [name] ≠ stop := by simp
    rw [Tree.node?_put _ inside, if_neg apart]
    exact order.node?_inside_eq_none missing clean fun same => hidden (same ▸ piece_of inMore)
  have moves : ¬ (component = "." ∨ component = "/") := by
    rintro (rfl | rfl)
    · contradiction
    · exact not_mem_of_mem_pieces (piece_of member) (by simp)
  cases below.finds_nothing empty (fun up => downwards (piece_of up)) ⟨component, member, moves⟩

/-- Directories that are made on the way to a path are made above it. -/
theorem standsAbove_of_mem_ancestors {above : String} (member : above ∈ ancestors directory)
    (upper : StandsAbove directory path) (filled : above ≠ "") : StandsAbove above path := by
  rcases mem_ancestorsWithin member with nothing | rfl | higher
  · exact absurd nothing filled
  · exact upper
  · exact upper.trans higher

theorem World.InOrder.makeDirectories (order : world.InOrder unseen)
    (upper : StandsAbove directory path) (hidden : unseen ∉ pieces path) :
    ((Disk.makeDirectories directory).runIn world).2.InOrder unseen := by
  refine makeDirectoriesAlong_preserves (·.InOrder unseen) ?_ order
  rintro above member filled before after order made
  have higher := standsAbove_of_mem_ancestors member upper filled
  exact order.makeDirectory (fun ahead => hidden (higher.named_subset ahead)) made

theorem World.InOrder.standsAt_makeDirectories (order : world.InOrder unseen)
    (upper : StandsAbove directory path) (downwards : ".." ∉ pieces path)
    (hidden : unseen ∉ pieces path) :
    ((Disk.makeDirectories directory).runIn world).2.standsAt path = world.standsAt path := by
  have preserved : ((Disk.makeDirectories directory).runIn world).2.InOrder unseen ∧
      ((Disk.makeDirectories directory).runIn world).2.standsAt path = world.standsAt path := by
    refine makeDirectoriesAlong_preserves
      (fun after => after.InOrder unseen ∧ after.standsAt path = world.standsAt path) ?_ ⟨order, rfl⟩
    rintro above member filled before after ⟨order, same⟩ made
    have higher := standsAbove_of_mem_ancestors member upper filled
    obtain ⟨none_before, none_after⟩ := order.standsAt_made higher downwards hidden made
    have notAhead : unseen ∉ named above := fun ahead => hidden (higher.named_subset ahead)
    exact ⟨order.makeDirectory notAhead made, by rw [none_after, ← none_before, same]⟩
  exact preserved.2

theorem makeDirectories_period (world : World) : ((makeDirectories ".").runIn world).2 = world := by
  refine makeDirectoriesAlong_preserves (· = world) ?_ rfl
  rintro path member filled before after - made
  have there : path = "." := by
    have listed : ancestors "." = [".", ""] := by decide
    rw [listed] at member
    simpa [filled] using member
  obtain ⟨place, -, leads, -⟩ := Change.makeDirectory_ok made
  have names : named path = ["."] := by rw [there]; decide
  rw [names] at leads
  have stays : Leads before.tree .entry mostLinks ["."] (before.start path)
      ⟨before.start path, some .directory⟩ := .skip (.inl rfl) .here
  cases stays.unique leads

end Stubwright.Disk
