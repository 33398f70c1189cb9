import Stubwright.Proofs.Disk.Fresh

namespace Stubwright.Disk

open Disk.Path

variable {world before between after : World} {path : String} {place : Place} {spot : Spot}
  {content : List UInt8}

structure Stages (before after : World) (path : String) (place : Place) (content : List UInt8) :
    Prop where
  usable : IsUsable path
  fresh : before.LeadsFresh path place
  working : after.workingDirectory = before.workingDirectory
  environment : after.environment = before.environment
  alone : after.tree.HasAlone place (.file content false)
  nodes : ∀ other, after.tree.node? other =
    if other = place then some (.file content false) else before.tree.node? other

namespace Stages

theorem start (stages : Stages before after path place content) (path : String) :
    after.start path = before.start path :=
  World.start_of_working stages.working path

theorem grows (stages : Stages before after path place content) {other : Place} {node : Node}
    (found : before.tree.node? other = some node) : after.tree.node? other = some node := by
  have apart : other ≠ place := by
    rintro rfl
    simp [stages.fresh.missing] at found
  rw [stages.nodes, if_neg apart, found]

theorem leads (stages : Stages before after path place content) (last : LastStep) :
    Leads after.tree last mostLinks (named path) (after.start path)
      ⟨place, some (.file content false)⟩ := by
  have there : after.tree.node? place = some (.file content false) := by
    rw [stages.nodes, if_pos rfl]
  have kept : before.tree.KeepsPassages after.tree := fun _ _ _ found => stages.grows found
  have leads := ((stages.fresh.leads last).kept kept).2 (by simp) (by rw [there]; trivial)
  rw [stages.start]
  rwa [there] at leads

theorem of_writeFile (fresh : world.LeadsFresh path place) (usable : IsUsable path)
    (written : Change.writeFile path content world = .ok after) :
    Stages world after path place content := by
  have located : world.locateForWriting path = .ok ⟨place, none⟩ :=
    World.locateForWriting_eq_ok.mpr ⟨usable, fresh.steps ▸ fresh.leads .written⟩
  rw [Change.writeFile, located] at written
  obtain rfl := (Except.ok.inj written).symm
  exact ⟨usable, fresh, rfl, rfl, fresh.free.hasAlone_put _,
    fun other => Tree.node?_put _ fresh.inside _ other⟩

theorem writeFile (stages : Stages before between path place content) (more : List UInt8) :
    ∃ after, Change.writeFile path more between = .ok after ∧
      Stages before after path place more := by
  have located : between.locateForWriting path = .ok ⟨place, some (.file content false)⟩ :=
    World.locateForWriting_eq_ok.mpr
      ⟨stages.usable, stages.fresh.steps ▸ stages.leads .written⟩
  refine ⟨{ between with tree := between.tree.put place (.file more false) },
    by rw [Change.writeFile, located], stages.usable, stages.fresh, stages.working,
    stages.environment, stages.alone.put _, fun other => ?_⟩
  dsimp only
  rw [Tree.node?_put _ stages.fresh.inside, stages.nodes]
  split <;> rfl

theorem removeAll (stages : Stages before between path place content) :
    ∃ after, Change.removeAll path between = .ok after ∧
      SameView before after := by
  have located : between.locateEntry path = .ok ⟨place, some (.file content false)⟩ :=
    World.locateEntry_eq_ok.mpr ⟨stages.usable, stages.leads .entry⟩
  refine ⟨{ between with tree := between.tree.remove place }, by rw [Change.removeAll, located],
    stages.working, stages.environment, fun other _ => ?_⟩
  dsimp only
  by_cases below : place <+: other
  · rw [Tree.node?_remove_of_prefix _ stages.fresh.inside below]
    exact (stages.fresh.free.node?_eq_none stages.fresh.inside below).symm
  · have apart : other ≠ place := by
      rintro rfl
      exact below List.prefix_rfl
    rw [Tree.node?_remove_of_not_prefix _ below, stages.nodes, if_neg apart]

/-- Where paths that end in no directory lead does not depend on the file. -/
theorem leads_before {target : String} (stages : Stages before after path place content)
    (led : Leads after.tree .entry mostLinks (named target) (after.start target) spot)
    (leaf : spot.node ≠ some .directory) :
    Leads before.tree .entry mostLinks (named target) (before.start target)
      ⟨spot.place, before.tree.node? spot.place⟩ ∧
        before.tree.node? spot.place ≠ some .directory := by
  have same {other : Place} (apart : other ≠ place) :
      after.tree.node? other = before.tree.node? other := by
    rw [stages.nodes, if_neg apart]
  have kept : after.tree.KeepsPassages before.tree := by
    intro other node passage found
    have apart : other ≠ place := by
      rintro rfl
      rw [stages.nodes, if_pos rfl] at found
      cases found
      exact passage
    rwa [same apart] at found
  have leafBefore : before.tree.node? spot.place ≠ some .directory := by
    by_cases here : spot.place = place
    · rw [here, stages.fresh.missing]
      simp
    · rw [← same here, ← (led.ends_in_name leaf).2.1]
      exact leaf
  refine ⟨?_, leafBefore⟩
  rw [← stages.start]
  exact (led.kept kept).2 leaf (LastStep.entry_stopsAt leafBefore)

end Stages

end Stubwright.Disk
