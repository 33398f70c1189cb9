import Stubwright.Proofs.Hierarchy.Memory
import Mathlib.Data.Finset.Card
import Mathlib.Data.Finset.SDiff

/-!
Why assembling ends. Each call for a supertype is made with one type more in progress, and none of
the types in progress is gone through again. A source knows no more names than its extent, so no
more calls than that are open at a time, and no larger depth gives another answer.
-/
namespace Stubwright

namespace Source

variable {source : Source} {name parent : String} {path : List String} {depth : Nat}

/-- The calls that a call makes: the types in progress with the type it is for, then a supertype. A
type in progress already is refused without any further call. -/
inductive Calls (source : Source) : List String × String → List String × String → Prop
  | above {path : List String} {name parent : String} (unmet : name ∉ path)
      (extended : source.Extends name parent) :
      Calls source (path, name) (path ++ [name], parent)

/-- The known names that are not in progress yet become fewer with each call. -/
theorem calls_wellFounded (bounded : source.Bounded) :
    WellFounded fun next call => source.Calls call next := by
  obtain ⟨names, -, covers⟩ := bounded
  let unmet (call : List String × String) : Nat := (names.toFinset \ call.1.toFinset).card
  refine Subrelation.wf (r := InvImage (· < ·) unmet) ?_ (InvImage.wf unmet Nat.lt_wfRel.wf)
  rintro _ _ @⟨path, name, parent, fresh, extended⟩
  have listed : name ∈ names := covers name extended.knows
  refine Finset.card_lt_card ⟨?_, fun equal => ?_⟩
  · exact Finset.sdiff_subset_sdiff (Finset.Subset.refl _) (by simp)
  · have member : name ∈ names.toFinset \ path.toFinset := by simp [listed, fresh]
    simpa using equal member

theorem Trail.of_calls (called : Relation.ReflTransGen source.Calls ([], name) (path, parent)) :
    source.Trail path parent := by
  generalize target : (path, parent) = call at called
  induction called generalizing path parent with
  | refl =>
      cases target
      exact .nil source name
  | tail _ step ih =>
      cases step with
      | above unmet extended =>
          cases target
          exact (ih rfl).step unmet extended

end Source

namespace Assembler

variable {source : Source} {name : String}

/-- A call for a type ends: its calls cannot go on for ever, never more of them are open than the
source has types, and so the depth that counts them is not what ends them. -/
structure Ends (source : Source) (name : String) : Prop where
  wellFounded : WellFounded fun next call => source.Calls call next
  open_le : ∀ path parent, Relation.ReflTransGen source.Calls ([], name) (path, parent) →
    path.length ≤ source.extent
  depth_free : ∀ depth, source.extent < depth →
    fresh (assembleBelow source depth name) = fresh (assemble source name)

theorem fresh_assembleBelow (bounded : source.Bounded) {depth : Nat}
    (room : source.extent < depth) :
    fresh (assembleBelow source depth name) = source.assembleBelow depth [] name :=
  fresh_of_reflects (reflects_assembleBelow bounded (.nil source name) (by simpa using room))

theorem ends (bounded : source.Bounded) (name : String) : Ends source name where
  wellFounded := Source.calls_wellFounded bounded
  open_le := fun _ _ called => (Source.Trail.of_calls called).length_le bounded
  depth_free := by
    intro depth room
    rw [fresh_assembleBelow bounded room, fresh_assemble bounded]
    induction depth, room using Nat.le_induction with
    | base => rfl
    | succ depth room ih =>
        rw [← ih]
        exact Source.assembleBelow_succ_depth bounded (.nil source name)
          (Nat.lt_of_succ_le room)

end Assembler

end Stubwright
