import Stubwright.Proofs.Text.Pieces

namespace Stubwright.Text

variable {line text : List Char} {all more : List (List Char)}

def unlines (all : List (List Char)) : List Char :=
  (all.map (· ++ ['\n'])).flatten

@[simp]
theorem unlines_nil : unlines [] = [] := rfl

@[simp]
theorem unlines_cons (line : List Char) (all : List (List Char)) :
    unlines (line :: all) = line ++ '\n' :: unlines all := by
  simp [unlines]

@[simp]
theorem unlines_append (all more : List (List Char)) :
    unlines (all ++ more) = unlines all ++ unlines more := by
  simp [unlines]

structure IsLine (line : List Char) : Prop where
  unbroken : '\n' ∉ line
  ending : line.getLast? ≠ some '\r'

theorem isLine_concat {front : List Char} {last : Char} (unbroken : '\n' ∉ front)
    (notFeed : last ≠ '\n') (notReturn : last ≠ '\r') : IsLine (front ++ [last]) where
  unbroken := by simp [unbroken, notFeed.symm]
  ending := by simp [notReturn]

theorem isLine_singleton {c : Char} (notFeed : c ≠ '\n') (notReturn : c ≠ '\r') : IsLine [c] where
  unbroken := by simp [notFeed.symm]
  ending := by simp [notReturn]

/-- What stands in front of a line that is not empty leaves its end as it is. -/
theorem IsLine.append {front : List Char} (tail : IsLine line) (filled : line ≠ [])
    (unbroken : '\n' ∉ front) : IsLine (front ++ line) where
  unbroken := by simp [unbroken, tail.unbroken]
  ending := by
    have ending := tail.ending
    rw [List.getLast?_eq_some_getLast filled] at ending
    rwa [List.getLast?_append, List.getLast?_eq_some_getLast filled, Option.some_or]

theorem cut_unlines (unbroken : ∀ line ∈ all, '\n' ∉ line) :
    cut '\n' (unlines all) = all ++ [[]] := by
  induction all with
  | nil => rfl
  | cons line all ih =>
      have here : '\n' ∉ line := unbroken line List.mem_cons_self
      rw [unlines_cons, cut_append_separator, cut_of_not_mem here,
        ih fun line later => unbroken line (List.mem_cons_of_mem _ later), List.singleton_append,
        List.cons_append]

theorem IsLine.dropCarriageReturn_eq (plain : IsLine line) : dropCarriageReturn line = line := by
  have ending : ¬ ['\r'].isSuffixOf line = true := by
    rw [List.isSuffixOf_iff_suffix]
    rintro ⟨front, rfl⟩
    exact plain.ending (by simp)
  rw [dropCarriageReturn, dropEnding?, if_neg ending, Option.getD_none]

theorem lines_unlines (plain : ∀ line ∈ all, IsLine line) : lines (unlines all) = all := by
  have kept : all.map dropCarriageReturn = all := by
    rw [List.map_congr_left fun line member => (plain line member).dropCarriageReturn_eq,
      List.map_id']
  simp [lines, cut_unlines fun line member => (plain line member).unbroken, kept]

theorem dropCarriageReturn_concat (front : List Char) (last : Char) :
    dropCarriageReturn (front ++ [last]) = if last = '\r' then front else front ++ [last] := by
  by_cases ends : last = '\r'
  · rw [dropCarriageReturn, dropEnding?, ends, if_pos (by simp)]
    simp
  · have plain : ¬ ['\r'].isSuffixOf (front ++ [last]) = true := by
      rw [List.isSuffixOf_iff_suffix, List.singleton_suffix_iff_getLast?_eq_some]
      simp [ends]
    rw [dropCarriageReturn, dropEnding?, if_neg plain, if_neg ends, Option.getD_none]

theorem dropCarriageReturn_append_cons {c : Char} (other : c ≠ '\r') (front back : List Char) :
    dropCarriageReturn (front ++ c :: back) = front ++ c :: dropCarriageReturn back := by
  induction back using List.reverseRecOn with
  | nil =>
      rw [dropCarriageReturn_concat, if_neg other]
      rfl
  | append_singleton back last _ =>
      have whole : front ++ c :: (back ++ [last]) = (front ++ c :: back) ++ [last] := by simp
      rw [whole, dropCarriageReturn_concat, dropCarriageReturn_concat]
      split
      · rfl
      · rw [whole]

theorem count_dropCarriageReturn {c : Char} (other : c ≠ '\r') (line : List Char) :
    (dropCarriageReturn line).count c = line.count c := by
  induction line using List.reverseRecOn with
  | nil => rfl
  | append_singleton front last _ =>
      rw [dropCarriageReturn_concat]
      split
      · rename_i ends
        rw [ends, List.count_append, List.count_singleton, if_neg (by simpa using other.symm),
          Nat.add_zero]
      · rfl

theorem lines_of_not_mem (unbroken : '\n' ∉ text) (filled : text ≠ []) : lines text = [text] := by
  obtain ⟨c, rest, rfl⟩ := List.exists_cons_of_ne_nil filled
  rw [lines, cut_of_not_mem unbroken]
  rfl

theorem lines_append_feed (text rest : List Char) :
    lines (text ++ '\n' :: rest) = (cut '\n' text).map dropCarriageReturn ++ lines rest := by
  have some_piece := cut_ne_nil '\n' rest
  rw [lines, lines, cut_append_separator, List.dropLast_append_of_ne_nil some_piece,
    List.getLast?_append, List.getLast?_eq_some_getLast some_piece, Option.some_or,
    List.map_append]
  split
  · rfl
  · rfl
  · rw [List.append_assoc]

theorem lines_unlines_append (unbroken : ∀ line ∈ all, '\n' ∉ line) (rest : List Char) :
    lines (unlines all ++ rest) = all.map dropCarriageReturn ++ lines rest := by
  induction all with
  | nil => rfl
  | cons line all ih =>
      rw [List.forall_mem_cons] at unbroken
      rw [unlines_cons, List.append_assoc, List.cons_append, lines_append_feed,
        cut_of_not_mem unbroken.1, ih unbroken.2]
      rfl

/-- Blocks of lines one after the other, with an empty line between neighbours. -/
def spaced (blocks : List (List (List Char))) : List (List Char) :=
  [[]].intercalate blocks

theorem spaced_nil : spaced [] = [] := rfl

theorem spaced_cons_cons (block next : List (List Char)) (blocks : List (List (List Char))) :
    spaced (block :: next :: blocks) = block ++ [] :: spaced (next :: blocks) := by
  rw [spaced, List.intercalate_cons_cons, List.append_assoc]
  rfl

theorem spaced_singleton (block : List (List Char)) : spaced [block] = block :=
  List.intercalate_singleton

end Stubwright.Text
