import Stubwright.Archive.Packing
import Stubwright.Proofs.Disk.Action
import Stubwright.Proofs.Disk.Staged

namespace Stubwright.Archive

open Disk Path

variable {host : Host} {world grown before after : World}
  {archivePath entryName artifact staged : String}
  {content bytes : List UInt8} {place : Place}

/-- A file takes the place that a path leads to. -/
structure Stores (grown after : World) (path : String) (bytes : List UInt8) (place : Place) :
    Prop where
  usable : IsUsable path
  leads : Leads grown.tree .entry mostLinks (named path) (grown.start path)
    ⟨place, grown.tree.node? place⟩
  leaf : grown.tree.node? place ≠ some .directory
  working : after.workingDirectory = grown.workingDirectory
  environment : after.environment = grown.environment
  stored : after.tree.node? place = some (.file bytes false)
  below : ∀ other, place <+: other → other ≠ place → after.tree.node? other = none
  elsewhere : ∀ other, ¬ place <+: other → after.tree.node? other = grown.tree.node? other

/-- How a packing ends, once directories are made. -/
inductive Packs (host : Host) (grown : World) (archivePath entryName : String) (content : List UInt8) :
    Except ArchiveFault Unit × World → Prop
  | failed {fault : ArchiveFault} {after : World} (same : SameView grown after) :
      Packs host grown archivePath entryName content (.error fault, after)
  | stored {after : World} {place : Place} (small : fits host.deflater content = true)
      (stores : Stores grown after archivePath (single host.deflater entryName content) place) :
      Packs host grown archivePath entryName content (.ok (), after)

theorem runIn_discard (stages : Stages before world staged place content) :
    ∃ after, (discard staged).runIn world = (.ok (), after) ∧ SameView before after := by
  obtain ⟨after, removed, same⟩ := stages.removeAll
  refine ⟨after, ?_, same⟩
  rw [discard, Action.runIn_get_bind, removed]
  rfl

theorem packs_discard (fault : ArchiveFault) (stages : Stages before world staged place bytes) :
    Packs host before archivePath entryName content
      ((do discard staged; throw fault : Action ArchiveFault Unit).runIn world) := by
  obtain ⟨after, ran, same⟩ := runIn_discard stages
  rw [Action.runIn_bind, ran]
  exact .failed same

/-- The staged file moves to where the path leads, also if it leads to the staged file itself. -/
theorem stores_rename (stages : Stages before world staged place bytes)
    (renamed : Change.rename staged archivePath world = .ok after) :
    ∃ place, Stores before after archivePath bytes place := by
  obtain ⟨spot, usable, leads, leaf, rfl⟩ := Change.rename_ok (stages.leads .entry) renamed
  obtain ⟨leadsBefore, leafBefore⟩ := stages.leads_before leads leaf
  have inside := leads.place_ne_nil leaf
  have free {other : Place} (below : place <+: other) : before.tree.node? other = none :=
    stages.fresh.free.node?_eq_none stages.fresh.inside below
  refine ⟨spot.place, ?_⟩
  by_cases same : place = spot.place
  · rw [if_pos same]
    refine ⟨usable, leadsBefore, leafBefore, stages.working, stages.environment, ?_,
      fun other below apart => ?_, fun other apart => ?_⟩
    · rw [stages.nodes, if_pos same.symm]
    · rw [stages.nodes, if_neg (same ▸ apart), free (same ▸ below)]
    · rw [stages.nodes, if_neg]
      rintro rfl
      exact apart (same ▸ List.prefix_rfl)
  · rw [if_neg same]
    have moved := stages.alone.node?_move stages.fresh.inside inside
    refine ⟨usable, leadsBefore, leafBefore, stages.working, stages.environment, ?_,
      fun other below apart => ?_, fun other apart => ?_⟩
    · exact (moved _).trans (if_pos rfl)
    · exact (moved _).trans ((if_neg apart).trans (if_pos (.inr below)))
    · refine (moved _).trans ?_
      rw [if_neg (by rintro rfl; exact apart List.prefix_rfl)]
      by_cases below : place <+: other
      · rw [if_pos (.inl below), free below]
      · rw [if_neg (by simp [below, apart]), stages.nodes, if_neg]
        rintro rfl
        exact below List.prefix_rfl

theorem packs_settle (small : fits host.deflater content = true)
    (stages : Stages before world staged place (single host.deflater entryName content)) :
    Packs host before archivePath entryName content ((settle staged archivePath).runIn world) := by
  rw [settle, Action.runIn_get_bind]
  cases renamed : Change.rename staged archivePath world with
  | error fault => exact packs_discard _ stages
  | ok after =>
      obtain ⟨place, stores⟩ := stores_rename stages renamed
      exact .stored small stores

theorem directoryOf_ne_empty (archivePath : String) : directoryOf archivePath ≠ "" := by
  rw [directoryOf]
  split
  · split
    · decide
    · rename_i filled
      simpa using filled
  · decide

theorem packs_replace (readable : grown.readFile artifact = .ok content) :
    Packs host grown archivePath entryName content
      ((replace host archivePath entryName artifact).runIn grown) := by
  rw [replace, Action.runIn_get_bind]
  dsimp only
  generalize chosen : freshPath host.names grown (directoryOf archivePath) ".implgen-" ".part" = staged
  rw [Action.runIn_bind, Action.runIn_perform]
  cases written : Change.writeFile staged [] grown with
  | error fault => exact .failed (.refl _ _)
  | ok between =>
      obtain ⟨spot, usable, leads, -⟩ := Change.writeFile_ok written
      subst chosen
      rw [steps_freshPath (by decide) (by decide) (by decide)] at leads
      obtain ⟨place, fresh, -⟩ := leadsFresh_freshPath (by decide) (by decide) (by decide)
        (directoryOf_ne_empty archivePath) usable leads
      have stages := Stages.of_writeFile fresh usable written
      have stillReadable : between.readFile artifact = .ok content :=
        readFile_of_kept (fun _ _ found => stages.grows found) (stages.start artifact) readable
      dsimp only
      rw [Action.runIn_get_bind, stillReadable]
      dsimp only
      cases contentFits : sizeFits content with
      | false => exact packs_discard _ stages
      | true =>
          cases packedFits : sizeFits (host.deflater.deflate content) with
          | false => exact packs_discard _ stages
          | true =>
              have small : fits host.deflater content = true := by
                rw [fits, contentFits, packedFits]
                rfl
              obtain ⟨after, rewritten, stagesToo⟩ :=
                stages.writeFile (single host.deflater entryName content)
              rw [if_neg (by simp), if_neg (by simp), Action.runIn_bind, Action.runIn_perform,
                rewritten]
              exact packs_settle small stagesToo

theorem packs_packInto (readable : world.readFile artifact = .ok content) :
    Packs host ((makeDirectories (directoryOf archivePath)).runIn world).2 archivePath entryName
      content ((packInto host archivePath entryName artifact).runIn world) := by
  have grows := grows_makeDirectories (directoryOf archivePath) world
  rw [packInto]
  dsimp only
  rw [Action.runIn_bind, Action.runIn_adapt]
  rcases made : (makeDirectories (directoryOf archivePath)).runIn world with ⟨result, grown⟩
  rw [made] at grows
  cases result with
  | error fault => exact .failed (.refl _ _)
  | ok done =>
      have stillReadable : grown.readFile artifact = .ok content :=
        readFile_of_kept grows.kept (grows.start artifact) readable
      have replaced : Packs host grown archivePath entryName content
          ((replace host archivePath entryName artifact).runIn grown) := packs_replace stillReadable
      dsimp only [Except.mapError]
      rw [Action.runIn_get_bind]
      split
      · rw [Action.runIn_get_bind, stillReadable]
        exact replaced
      · exact replaced

theorem standsAbove_directoryOf (archivePath : String) :
    directoryOf archivePath = "." ∨ StandsAbove (directoryOf archivePath) archivePath := by
  rw [directoryOf]
  split
  · rename_i above found
    split
    · exact .inl rfl
    · rename_i filled
      rcases standsAbove_of_parent? found with nothing | upper
      · simp [nothing] at filled
      · exact .inr upper
  · exact .inl rfl

section Directories

variable {unseen : String} (order : world.InOrder unseen) (hidden : unseen ∉ pieces archivePath)
include order hidden

theorem inOrder_makeDirectories :
    ((makeDirectories (directoryOf archivePath)).runIn world).2.InOrder unseen := by
  rcases standsAbove_directoryOf archivePath with period | upper
  · rwa [period, makeDirectories_period]
  · exact order.makeDirectories upper hidden

theorem standsAt_makeDirectories (downwards : ".." ∉ pieces archivePath) :
    ((makeDirectories (directoryOf archivePath)).runIn world).2.standsAt archivePath =
      world.standsAt archivePath := by
  rcases standsAbove_directoryOf archivePath with period | upper
  · rw [period, makeDirectories_period]
  · exact order.standsAt_makeDirectories upper downwards hidden

end Directories

namespace Stores

variable {path unseen : String} (stores : Stores grown after path bytes place)
include stores

theorem inside : place ≠ [] := stores.leads.place_ne_nil stores.leaf

theorem kept_or_closed (other : Place) {node : Node} (found : grown.tree.node? other = some node) :
    after.tree.node? other = some node ∨
      ∀ passage, passage.isPassage → after.tree.node? other ≠ some passage := by
  by_cases below : place <+: other
  · right
    intro passage counts there
    by_cases here : other = place
    · rw [here, stores.stored] at there
      cases there
      exact counts
    · rw [stores.below other below here] at there
      cases there
  · exact .inl ((stores.elsewhere other below).trans found)

theorem hides (hides : grown.tree.Hides unseen) : after.tree.Hides unseen := by
  refine ⟨hides.slash, fun other target clean found => ?_⟩
  by_cases below : place <+: other
  · by_cases here : other = place
    · rw [here, stores.stored] at found
      cases found
    · rw [stores.below other below here] at found
      cases found
  · rw [stores.elsewhere other below] at found
    exact hides.links other target clean found

/-- The file is found at the path, unless it took the place of a link. -/
theorem standsAt (order : grown.InOrder unseen) (hidden : unseen ∉ named path)
    (noLink : ∀ target, grown.tree.node? place ≠ some (.link target)) :
    after.standsAt path = some (.file bytes false) := by
  have agree (other : Place) (clean : unseen ∉ other) :
      (grown.tree.without unseen).node? other = grown.tree.node? other := by
    rw [Tree.node?_without, if_neg clean]
  obtain ⟨leads, clean⟩ := stores.leads.unseen order.hides agree hidden (order.start path).1
  have kept : (grown.tree.without unseen).KeepsPassages after.tree := by
    intro other node passage found
    have cleanOther : unseen ∉ other := by
      intro member
      rw [Tree.node?_without, if_pos member] at found
      cases found
    rw [agree other cleanOther] at found
    have apart : ¬ place <+: other := by
      rintro ⟨rest, rfl⟩
      cases rest with
      | nil =>
          rw [List.append_nil] at found
          cases node with
          | directory => exact stores.leaf found
          | link target => exact noLink target found
          | _ => exact passage
      | cons name rest =>
          exact stores.leaf (order.closed place name rest cleanOther (by simp [found]))
    rw [stores.elsewhere other apart, found]
  have found := (leads.kept kept).2 stores.leaf (LastStep.entry_stopsAt (by
    rw [stores.stored]
    simp))
  rw [stores.stored] at found
  have start : after.start path = grown.start path := World.start_of_working stores.working path
  exact World.standsAt_eq_some.mpr ⟨stores.usable, place, start ▸ found⟩

theorem cleared {base : Place} (filled : base ≠ []) (member : unseen ∈ base)
    (order : grown.InOrder unseen) (hidden : unseen ∉ named path) :
    unseen ∉ place ∧ Stores { grown with tree := grown.tree.remove base }
      { after with tree := after.tree.remove base } path bytes place := by
  have agree (other : Place) (clean : unseen ∉ other) :
      (grown.tree.remove base).node? other = grown.tree.node? other :=
    Tree.node?_remove_of_not_prefix _ fun below => clean (below.subset member)
  obtain ⟨leads, clean⟩ := stores.leads.unseen order.hides agree hidden (order.start path).1
  have apart : ¬ base <+: place := fun below => clean (below.subset member)
  rw [← agree place clean] at leads
  refine ⟨clean, stores.usable, leads, ?_, stores.working, stores.environment, ?_,
    fun other below differs => ?_, fun other outside => ?_⟩
  · rw [agree place clean]
    exact stores.leaf
  · exact (Tree.node?_remove_of_not_prefix _ apart).trans stores.stored
  · by_cases inBase : base <+: other
    · exact Tree.node?_remove_of_prefix _ filled inBase
    · exact (Tree.node?_remove_of_not_prefix _ inBase).trans (stores.below other below differs)
  · dsimp only
    by_cases inBase : base <+: other
    · rw [Tree.node?_remove_of_prefix _ filled inBase, Tree.node?_remove_of_prefix _ filled inBase]
    · rw [Tree.node?_remove_of_not_prefix _ inBase, Tree.node?_remove_of_not_prefix _ inBase,
        stores.elsewhere other outside]

end Stores

end Stubwright.Archive
