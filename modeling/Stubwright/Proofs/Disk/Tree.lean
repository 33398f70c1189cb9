import Stubwright.Disk.Action
import Stubwright.Disk.Names
import Mathlib.Data.List.Basic

namespace Stubwright.Disk

namespace Tree

variable {tree : Tree} {place other : Place} {node : Node} {name : String}

@[simp]
theorem node?_root (tree : Tree) : tree.node? [] = some .directory := rfl

theorem node?_of_ne (tree : Tree) (inside : place ≠ []) :
    tree.node? place = tree.entries.lookup place := by
  cases place with
  | nil => contradiction
  | cons name rest => rfl

theorem node?_put_of_some {new : Node} (inside : place ≠ []) (missing : tree.node? place = none)
    (found : tree.node? other = some node) : (tree.put place new).node? other = some node := by
  have apart : other ≠ place := by
    rintro rfl
    simp [found] at missing
  rw [node?_put _ inside, if_neg apart, found]

theorem lookup_filter (keep : Place → Bool) (entries : List (Place × Node)) (place : Place) :
    (entries.filter fun entry => keep entry.1).lookup place =
      if keep place then entries.lookup place else none := by
  induction entries with
  | nil => simp
  | cons entry others ih =>
      obtain ⟨here, node⟩ := entry
      by_cases same : place = here
      · subst same
        cases kept : keep place <;> simp [kept, ih]
      · have differs : (place == here) = false := beq_false_of_ne same
        cases kept : keep here <;> simp [kept, List.lookup_cons, differs, ih]

theorem node?_remove (tree : Tree) (place : Place) (inside : other ≠ []) :
    (tree.remove place).node? other = if place <+: other then none else tree.node? other := by
  rw [node?_of_ne _ inside, node?_of_ne _ inside, remove,
    lookup_filter (fun here => !place.isPrefixOf here)]
  by_cases below : place <+: other
  · rw [if_pos below, if_neg (by simpa using below)]
  · have apart : place.isPrefixOf other = false := by
      rwa [Bool.eq_false_iff, ne_eq, List.isPrefixOf_iff_prefix]
    rw [if_neg below, apart, if_pos Bool.not_false]

theorem node?_remove_of_not_prefix (tree : Tree) (apart : ¬ place <+: other) :
    (tree.remove place).node? other = tree.node? other := by
  cases other with
  | nil => rfl
  | cons name rest => rw [node?_remove _ _ (List.cons_ne_nil name rest), if_neg apart]

theorem node?_remove_of_prefix (tree : Tree) (inside : place ≠ []) (below : place <+: other) :
    (tree.remove place).node? other = none := by
  have elsewhere : other ≠ [] := by
    rintro rfl
    exact inside (List.prefix_nil.mp below)
  rw [node?_remove _ _ elsewhere, if_pos below]

def without (tree : Tree) (unseen : String) : Tree :=
  ⟨tree.entries.filter fun entry => !entry.1.contains unseen⟩

theorem node?_without (tree : Tree) (unseen : String) (place : Place) :
    (tree.without unseen).node? place = if unseen ∈ place then none else tree.node? place := by
  cases place with
  | nil => rfl
  | cons first rest =>
      have inside : first :: rest ≠ [] := List.cons_ne_nil first rest
      rw [node?_of_ne _ inside, node?_of_ne _ inside, without,
        lookup_filter fun here => !here.contains unseen]
      by_cases member : unseen ∈ first :: rest
      · have held : (first :: rest).contains unseen = true := List.contains_iff_mem.mpr member
        rw [if_pos member, held, if_neg (by simp)]
      · have lacks : (first :: rest).contains unseen = false := by
          rwa [Bool.eq_false_iff, ne_eq, List.contains_iff_mem]
        rw [if_neg member, lacks, if_pos (by simp)]

/-- Nothing is at a place or below it, seen or unseen. -/
def IsFree (tree : Tree) (place : Place) : Prop :=
  ∀ entry ∈ tree.entries, ¬ place <+: entry.1

theorem IsFree.node?_eq_none (free : tree.IsFree place) (inside : place ≠ [])
    (below : place <+: other) : tree.node? other = none := by
  have elsewhere : other ≠ [] := by
    rintro rfl
    exact inside (List.prefix_nil.mp below)
  rw [node?_of_ne _ elsewhere, List.lookup_eq_none_iff]
  intro entry listed
  have apart : other ≠ entry.1 := by
    rintro rfl
    exact free entry listed below
  simpa using apart

/-- A node is everything that is at a place or below it. -/
def HasAlone (tree : Tree) (place : Place) (node : Node) : Prop :=
  tree.entries.filter (fun entry => place.isPrefixOf entry.1) = [(place, node)]

theorem filter_putIn (place : Place) (node : Node) (entries : List (Place × Node))
    (at_most : entries.filter (fun entry => place.isPrefixOf entry.1) = [] ∨
      ∃ old, entries.filter (fun entry => place.isPrefixOf entry.1) = [(place, old)]) :
    (putIn place node entries).filter (fun entry => place.isPrefixOf entry.1) = [(place, node)] := by
  induction entries with
  | nil => simp [putIn]
  | cons entry others ih =>
      obtain ⟨here, old⟩ := entry
      by_cases same : place = here
      · subst same
        have none_left : others.filter (fun entry => place.isPrefixOf entry.1) = [] := by
          rcases at_most with nothing | ⟨old, alone⟩
          · simp at nothing
          · rw [List.filter_cons_of_pos (by simp)] at alone
            exact (List.cons.inj alone).2
        rw [putIn, if_pos (by simp), List.filter_cons_of_pos (by simp), none_left]
      · have apart : ¬ place.isPrefixOf here := by
          intro below
          rw [List.filter_cons_of_pos (by simpa using below)] at at_most
          rcases at_most with nothing | ⟨old, alone⟩
          · cases nothing
          · exact same (congrArg Prod.fst (List.cons.inj alone).1).symm
        rw [List.filter_cons_of_neg (by simpa using apart)] at at_most
        rw [putIn, if_neg (by simpa using same), List.filter_cons_of_neg (by simpa using apart),
          ih at_most]

theorem IsFree.hasAlone_put (free : tree.IsFree place) (node : Node) :
    (tree.put place node).HasAlone place node := by
  refine filter_putIn place node tree.entries (.inl (List.filter_eq_nil_iff.mpr ?_))
  intro entry listed
  simpa using free entry listed

theorem HasAlone.put {old : Node} (alone : tree.HasAlone place old) (node : Node) :
    (tree.put place node).HasAlone place node :=
  filter_putIn place node tree.entries (.inr ⟨old, alone⟩)

theorem HasAlone.node?_move {target : Place} (alone : tree.HasAlone place node) (inside : place ≠ [])
    (targetInside : target ≠ []) (other : Place) :
    (tree.move place target).node? other =
      if other = target then some node
      else if place <+: other ∨ target <+: other then none else tree.node? other := by
  have whole : tree.move place target =
      ((tree.remove target).remove place).put target node := by
    rw [move, alone]
    simp
  rw [whole, node?_put _ targetInside]
  split
  · rfl
  · cases other with
    | nil => simp [inside, targetInside]
    | cons name rest =>
        rw [node?_remove _ _ (List.cons_ne_nil name rest),
          node?_remove _ _ (List.cons_ne_nil name rest)]
        by_cases below : place <+: name :: rest
        · simp [below]
        · simp [below]

end Tree

theorem isFree_freshName (names : Names) (tree : Tree) (place : Place) (start stop : String) :
    tree.IsFree (place ++ [freshName names tree place start stop]) := by
  have fresh := names.fresh (tree.namesBelow place) start stop
  intro entry listed below
  refine fresh (List.mem_filterMap.mpr ⟨entry, listed, ?_⟩)
  obtain ⟨rest, path⟩ := below
  have above : place <+: entry.1 := ⟨_ :: rest, by simpa using path⟩
  rw [if_pos (List.isPrefixOf_iff_prefix.mpr above), ← path]
  simp [freshName]

end Stubwright.Disk
