import Stubwright.Proofs.Disk.Change

namespace Stubwright.Disk

open Disk.Path

variable {tree : Tree} {links : Nat} {todo less : List String} {here : Place}
  {spot spotToo : Spot} {world : World} {path other : String}

def moves (name : String) : Bool :=
  name != "." && name != "/"

inductive Thins : List String → List String → Prop
  | nil : Thins [] []
  | keep (name : String) {todo less : List String} (rest : Thins todo less) :
      Thins (name :: todo) (name :: less)
  | drop {name : String} {todo less : List String} (still : name = "." ∨ name = "/")
      (rest : Thins todo less) : Thins (name :: todo) less

theorem Thins.prepend (thins : Thins todo less) (front : List String) :
    Thins (front ++ todo) (front ++ less) := by
  induction front with
  | nil => exact thins
  | cons name _ ih => exact .keep name ih

theorem thins_filter (todo : List String) : Thins todo (todo.filter moves) := by
  induction todo with
  | nil => exact .nil
  | cons name rest ih =>
      by_cases moving : moves name = true
      · rw [List.filter_cons_of_pos moving]
        exact .keep name ih
      · rw [List.filter_cons_of_neg moving]
        refine .drop ?_ ih
        simp only [moves, Bool.and_eq_true, bne_iff_ne, ne_eq] at moving
        tauto

/-- A walk that succeeds does so without the steps that lead nowhere. -/
theorem Leads.thinned (led : Leads tree .target links todo here spot) (thins : Thins todo less) :
    Leads tree .target links less here spot := by
  induction led generalizing less with
  | here =>
      cases thins
      exact .here
  | skip still _ ih =>
      cases thins with
      | keep _ rest => exact .skip still (ih rest)
      | drop _ rest => exact ih rest
  | up _ ih =>
      cases thins with
      | keep _ rest => exact .up (ih rest)
      | drop still => simp at still
  | down step _ found _ ih =>
      cases thins with
      | keep _ rest => exact .down step (by simp) found (ih rest)
      | drop still => exact absurd still step.still
  | follow step _ found _ _ ih =>
      cases thins with
      | keep _ rest => exact .follow step (by simp) found (by simp) (ih (rest.prepend _))
      | drop still => exact absurd still step.still
  | stop step stops =>
      cases thins with
      | keep _ rest =>
          cases rest
          exact .stop step stops
      | drop still => exact absurd still step.still

namespace Path

theorem moves_of_mem_pieces {piece : String} (member : piece ∈ pieces path) :
    moves piece = (piece != ".") := by
  have flat : piece ≠ "/" := by
    rintro rfl
    exact not_mem_of_mem_pieces member (by simp)
  simp [moves, flat]

theorem filter_named (path : String) :
    (named path).filter moves = (pieces path).filter isComponent := by
  rw [named, List.filter_filter]
  refine List.filter_congr fun piece member => ?_
  rw [moves_of_mem_pieces member, isComponent, Bool.and_comm]

theorem filter_steps (path : String) :
    (steps path).filter moves = (pieces path).filter isComponent := by
  rcases steps_cases path with short | long
  · rw [short, filter_named]
  · rw [long, List.filter_append, filter_named]
    simp [moves]

theorem filter_components (path : String) :
    (components path).filter moves = (pieces path).filter isComponent := by
  have front : (lead path).filter moves = [] := by
    rw [lead]
    split
    · rfl
    · split <;> rfl
  rw [components_eq, List.filter_append, front, List.nil_append, List.filter_eq_self]
  intro piece listed
  obtain ⟨member, counts⟩ := List.mem_filter.mp listed
  rw [moves_of_mem_pieces member]
  simpa using ne_period_of_isComponent counts

theorem isAbsolute_iff_mem_components : isAbsolute path = true ↔ "/" ∈ components path := by
  have flat : "/" ∉ (pieces path).filter isComponent := fun listed =>
    not_mem_of_mem_pieces (List.mem_of_mem_filter listed) (by simp)
  rw [components_eq, List.mem_append, or_iff_left flat, lead]
  split
  · simp [*]
  · split <;> simp [*]

end Path

theorem World.locate_unique_of_components (same : components path = components other)
    (located : world.locate path = .ok spot) (locatedToo : world.locate other = .ok spotToo) :
    spotToo = spot := by
  obtain ⟨-, led⟩ := World.locate_eq_ok.mp located
  obtain ⟨-, ledToo⟩ := World.locate_eq_ok.mp locatedToo
  have absolute : isAbsolute other = isAbsolute path := by
    rw [Bool.eq_iff_iff, isAbsolute_iff_mem_components, isAbsolute_iff_mem_components, same]
  have start : world.start other = world.start path := World.start_of_absolute world absolute
  have steps : (steps other).filter moves = (steps path).filter moves := by
    rw [filter_steps, filter_steps, ← filter_components, ← filter_components, same]
  have thin := led.thinned (thins_filter _)
  have thinToo := ledToo.thinned (thins_filter _)
  rw [steps, start] at thinToo
  exact thin.unique thinToo

end Stubwright.Disk
