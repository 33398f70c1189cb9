import Stubwright.Proofs.Disk.Path

namespace Stubwright.Disk.Path

open Text

variable {path above first name : String} {segments rest front : List String}

/-- One path goes on with the names of another, and at least one component more. -/
structure StandsAbove (above path : String) : Prop where
  absolute : isAbsolute above = isAbsolute path
  names : ∃ more, named path = named above ++ more ∧ ∃ name ∈ more, isComponent name = true

theorem StandsAbove.trans {between : String} (lower : StandsAbove between path)
    (upper : StandsAbove above between) : StandsAbove above path := by
  obtain ⟨absolute, more, names, name, member, counts⟩ := lower
  obtain ⟨absoluteToo, moreToo, namesToo, -⟩ := upper
  refine ⟨absoluteToo.trans absolute, moreToo ++ more, ?_, name, ?_, counts⟩
  · rw [names, namesToo, List.append_assoc]
  · exact List.mem_append_right _ member

theorem StandsAbove.named_subset (upper : StandsAbove above path) : named above ⊆ pieces path := by
  obtain ⟨more, names, -⟩ := upper.names
  intro piece member
  have listed : piece ∈ named path := by
    rw [names]
    exact List.mem_append_left _ member
  exact (List.mem_filter.mp listed).1

theorem trimPieces_front (segments : List String) : trimPieces segments <+: segments := by
  rw [trimPieces, ← List.reverse_suffix, List.reverse_reverse]
  exact List.dropWhile_suffix _

theorem trimPieces_cases (segments : List String) :
    trimPieces segments = [] ∨
      ∃ front name, trimPieces segments = front ++ [name] ∧ isComponent name = true := by
  cases kept : segments.reverse.dropWhile (!isComponent ·) with
  | nil => exact .inl (by rw [trimPieces, kept, List.reverse_nil])
  | cons name front =>
      right
      refine ⟨front.reverse, name, by rw [trimPieces, kept, List.reverse_cons], ?_⟩
      have stops := List.head?_dropWhile_not (!isComponent ·) segments.reverse
      rw [kept] at stops
      simpa using stops

theorem isAbsolute_iff (cutOut : pieces path = first :: rest) :
    isAbsolute path = true ↔ first = "" ∧ rest ≠ [] := by
  rw [isAbsolute, beq_iff_eq]
  cases text : path.toList with
  | nil =>
      rw [pieces, text, cut, List.map_singleton, List.cons.injEq] at cutOut
      simp [← cutOut.2]
  | cons c tail =>
      by_cases slash : c = '/'
      · rw [pieces, text, slash, cut_cons_self, List.map_cons, List.cons.injEq] at cutOut
        simp [← cutOut.1, ← cutOut.2, slash, cut_ne_nil]
      · obtain ⟨piece, others, cutTail⟩ := exists_cut_eq_cons '/' tail
        rw [pieces, text, cut_cons_of_ne slash cutTail, List.map_cons, List.cons.injEq] at cutOut
        have filled : first ≠ "" := by
          rw [← cutOut.1]
          intro empty
          simpa using congrArg String.toList empty
        simp [slash, filled]

theorem parent?_of_short (whole : pieces path = first :: rest) (nothing : trimPieces rest = []) :
    parent? path = if isAbsolute path || first = "" then none else some "" := by
  rw [parent?, whole]
  simp only [nothing]

theorem parent?_of_long (whole : pieces path = first :: rest)
    (trimmed : trimPieces rest = front ++ [name]) :
    parent? path = some (if isAbsolute path && (trimPieces front).isEmpty then "/"
      else "/".intercalate (first :: trimPieces front)) := by
  obtain ⟨head, others, listed⟩ :=
    List.exists_cons_of_ne_nil (List.append_ne_nil_of_right_ne_nil front (List.cons_ne_nil name []))
  rw [parent?, whole]
  simp only [trimmed, List.dropLast_concat]
  rw [listed]
  dsimp only
  split <;> rfl

theorem trimPieces_of_trimmed (trimmed : trimPieces rest = front ++ [name]) :
    trimPieces front <+: rest :=
  (trimPieces_front front).trans ((List.prefix_append _ _).trans (trimmed ▸ trimPieces_front rest))

theorem cut_parent (whole : pieces path = first :: rest) (trimmed : trimPieces rest = front ++ [name])
    (apart : ¬ (isAbsolute path = true ∧ trimPieces front = [])) :
    pieces ("/".intercalate (first :: trimPieces front)) = first :: trimPieces front ∧
      isAbsolute ("/".intercalate (first :: trimPieces front)) = isAbsolute path := by
  have clean : ∀ piece ∈ first :: trimPieces front, '/' ∉ piece.toList := by
    intro piece member
    have listed : piece ∈ pieces path := by
      rw [whole]
      exact List.cons_subset_cons first (trimPieces_of_trimmed trimmed).subset member
    exact not_mem_of_mem_pieces listed
  have cut := pieces_intercalate clean (List.cons_ne_nil _ _)
  have some_rest : rest ≠ [] := by
    rintro rfl
    simp [trimPieces] at trimmed
  have some_kept : first = "" → trimPieces front ≠ [] :=
    fun bare nothing => apart ⟨(isAbsolute_iff whole).mpr ⟨bare, some_rest⟩, nothing⟩
  refine ⟨cut, ?_⟩
  rw [Bool.eq_iff_iff, isAbsolute_iff cut, isAbsolute_iff whole]
  tauto

theorem standsAbove_of_parent? (found : parent? path = some above) :
    above = "" ∨ StandsAbove above path := by
  obtain ⟨first, rest, whole⟩ := List.exists_cons_of_ne_nil (pieces_ne_nil path)
  rcases trimPieces_cases rest with nothing | ⟨front, name, trimmed, counts⟩
  · rw [parent?_of_short whole nothing] at found
    split at found
    · cases found
    · exact .inl (Option.some.inj found).symm
  · right
    obtain ⟨tail, rest_eq⟩ := trimPieces_front rest
    obtain ⟨gap, kept⟩ := trimPieces_front front
    have split_rest : rest = trimPieces front ++ (gap ++ name :: tail) := by
      rw [← rest_eq, trimmed]
      conv_lhs => rw [← kept]
      simp
    have names : named path =
        (first :: trimPieces front).filter (· != "") ++ (gap ++ name :: tail).filter (· != "") := by
      rw [named, whole, ← List.filter_append, List.cons_append, ← split_rest]
    have more : ∃ piece ∈ (gap ++ name :: tail).filter (· != ""), isComponent piece = true := by
      refine ⟨name, ?_, counts⟩
      simp [ne_empty_of_isComponent counts]
    rw [parent?_of_long whole trimmed] at found
    split at found
    · rename_i atRoot
      simp only [Bool.and_eq_true, List.isEmpty_iff] at atRoot
      have bare : first = "" := ((isAbsolute_iff whole).mp atRoot.1).1
      obtain rfl : above = "/" := (Option.some.inj found).symm
      refine ⟨by rw [atRoot.1]; rfl, _, ?_, more⟩
      rw [names, atRoot.2, bare]
      rfl
    · rename_i apart
      obtain rfl := Option.some.inj found
      obtain ⟨cut, absolute⟩ := cut_parent whole trimmed (by simpa using apart)
      exact ⟨absolute, _, by rw [names, named, cut], more⟩

theorem not_standsAbove_empty : ¬ StandsAbove above "" := by
  rintro ⟨-, more, names, name, member, -⟩
  have nothing := (List.append_eq_nil_iff.mp names.symm).2
  simp [nothing] at member

theorem mem_ancestorsWithin {steps : Nat} (member : above ∈ ancestorsWithin steps path) :
    above = "" ∨ above = path ∨ StandsAbove above path := by
  induction steps generalizing path with
  | zero => exact .inr (.inl (List.mem_singleton.mp member))
  | succ steps ih =>
      rw [ancestorsWithin] at member
      split at member
      · exact .inr (.inl (List.mem_singleton.mp member))
      · rename_i parent found
        rcases List.mem_cons.mp member with rfl | higher
        · exact .inr (.inl rfl)
        · rcases ih higher with nothing | rfl | upper
          · exact .inl nothing
          · rcases standsAbove_of_parent? found with nothing | lower
            · exact .inl nothing
            · exact .inr (.inr lower)
          · rcases standsAbove_of_parent? found with rfl | lower
            · exact absurd upper not_standsAbove_empty
            · exact .inr (.inr (lower.trans upper))

end Stubwright.Disk.Path
