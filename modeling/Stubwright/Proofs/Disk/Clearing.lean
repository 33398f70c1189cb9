import Stubwright.Proofs.Disk.Confinement

/-!
Directories that are used for a while and then removed. If nothing else uses the name of such a
directory, no other path can tell whether it is there, and removing it undoes whatever was done in it.
-/
namespace Stubwright.Disk

open Disk.Path

variable {before between after : World} {path unseen : String} {base place : Place}
  {last : LastStep} {links left : Nat} {todo : List String} {here : Place} {spot : Spot}

section Unseen

variable (changes : ChangesIn (unseen ∈ ·) before after)
include changes

theorem ChangesIn.hides (hides : before.tree.Hides unseen) : after.tree.Hides unseen := by
  refine ⟨hides.slash, fun place target clean found => ?_⟩
  rw [changes.elsewhere place clean] at found
  exact hides.links place target clean found

theorem ChangesIn.leads (hides : before.tree.Hides unseen)
    (notWorking : unseen ∉ before.workingDirectory) (hidden : unseen ∉ named path)
    (led : Leads before.tree last mostLinks (named path) (before.start path) spot) :
    Leads after.tree last mostLinks (named path) (after.start path) spot ∧ unseen ∉ spot.place := by
  have notStart : unseen ∉ before.start path := by
    rw [World.start]
    split
    · exact List.not_mem_nil
    · exact notWorking
  rw [changes.start]
  exact led.unseen hides changes.elsewhere hidden notStart

theorem ChangesIn.standsAt_eq (hides : before.tree.Hides unseen)
    (notWorking : unseen ∉ before.workingDirectory) (hidden : unseen ∉ named path) :
    after.standsAt path = before.standsAt path := by
  have onward {before after : World} {node : Node} (changes : ChangesIn (unseen ∈ ·) before after)
      (hides : before.tree.Hides unseen) (notWorking : unseen ∉ before.workingDirectory)
      (stands : before.standsAt path = some node) : after.standsAt path = some node := by
    obtain ⟨usable, place, leads⟩ := World.standsAt_eq_some.mp stands
    exact World.standsAt_eq_some.mpr
      ⟨usable, place, (changes.leads hides notWorking hidden leads).1⟩
  have notWorkingAfter : unseen ∉ after.workingDirectory := changes.working ▸ notWorking
  refine Option.ext fun node => ⟨?_, onward changes hides notWorking⟩
  exact onward changes.symm (changes.hides hides) notWorkingAfter

theorem World.InOrder.of_changesIn (order : before.InOrder unseen) : after.InOrder unseen := by
  refine ⟨changes.hides order.hides, changes.working ▸ order.notWorking, ?_,
    fun place name rest clean some_node => ?_⟩
  · rw [changes.working, changes.elsewhere _ order.notWorking]
    exact order.working
  · have cleanAbove : unseen ∉ place := fun above => clean (List.mem_append_left _ above)
    rw [changes.elsewhere _ clean] at some_node
    rw [changes.elsewhere _ cleanAbove]
    exact order.closed place name rest clean some_node

end Unseen

theorem ChangesIn.of_mem (changes : ChangesBelow base before after) (member : unseen ∈ base) :
    ChangesIn (unseen ∈ ·) before after :=
  changes.mono fun _ below => below.subset member

theorem ChangesIn.grows (same : SameView before after) : Grows before after :=
  ⟨same.working, same.environment,
    fun place _ found => (same.elsewhere place not_false).trans found,
    fun place missing => .inl ((same.elsewhere place not_false).trans missing)⟩

theorem ChangesIn.standsAt_of_sameView (same : SameView before after) :
    after.standsAt path = before.standsAt path :=
  Option.ext fun _ => ⟨same.symm.grows.standsAt_eq_some, same.grows.standsAt_eq_some⟩

/-- What is done below a place where nothing was is undone when the place is cleared. -/
theorem Grows.cleared (inside : base ≠ []) (free : before.tree.IsFree base)
    (confined : ChangesBelow base before between) (grows : Grows between after) :
    Grows before { after with tree := after.tree.remove base } := by
  refine ⟨grows.working.trans confined.working, grows.environment.trans confined.environment,
    fun place node found => ?_, fun place missing => ?_⟩
  · have apart : ¬ base <+: place := by
      intro below
      rw [free.node?_eq_none inside below] at found
      cases found
    rw [← confined.elsewhere place apart] at found
    dsimp only
    rw [Tree.node?_remove_of_not_prefix _ apart, grows.kept place node found]
  · dsimp only
    by_cases below : base <+: place
    · exact .inl (Tree.node?_remove_of_prefix _ inside below)
    · rw [Tree.node?_remove_of_not_prefix _ below]
      rw [← confined.elsewhere place below] at missing
      exact grows.added place missing

theorem Tree.KeepsOrCloses.same {tree treeAfter : Tree} {node other : Node}
    (kept : tree.KeepsOrCloses treeAfter) (found : tree.node? place = some node)
    (foundAfter : treeAfter.node? place = some other) (passage : node.isPassage)
    (passageAfter : other.isPassage) : other = node := by
  rcases kept place node passage found with same | closed
  · exact Option.some.inj (foundAfter.symm.trans same)
  · exact absurd foundAfter (closed other passageAfter)

/-- Where passages are kept or closed, steps that still lead somewhere lead where they led. -/
theorem Descends.of_closed {tree treeAfter : Tree} {leftAfter : Nat} {other : Place}
    (kept : tree.KeepsOrCloses treeAfter)
    (descent : Descends tree links todo here left place)
    (descentAfter : Descends treeAfter links todo here leftAfter other) : other = place := by
  -- Both walks take the same rule at every step: a directory cannot have become a link.
  induction descent with
  | here =>
      cases descentAfter
      rfl
  | skip still _ ih =>
      cases descentAfter with
      | skip _ goes_on => exact ih goes_on
      | up => simp at still
      | down step => exact absurd still step.still
      | follow step => exact absurd still step.still
  | up _ ih =>
      cases descentAfter with
      | skip still => simp at still
      | up goes_on => exact ih goes_on
      | down step => exact absurd rfl step.upwards
      | follow step => exact absurd rfl step.upwards
  | down step found _ ih =>
      cases descentAfter with
      | skip still => exact absurd still step.still
      | up => exact absurd rfl step.upwards
      | down _ _ goes_on => exact ih goes_on
      | follow _ foundAfter _ => cases kept.same found foundAfter trivial trivial
  | follow step found _ ih =>
      cases descentAfter with
      | skip still => exact absurd still step.still
      | up => exact absurd rfl step.upwards
      | down _ foundAfter _ => cases kept.same found foundAfter trivial trivial
      | follow _ foundAfter goes_on =>
          cases kept.same found foundAfter trivial trivial
          exact ih goes_on

end Stubwright.Disk
