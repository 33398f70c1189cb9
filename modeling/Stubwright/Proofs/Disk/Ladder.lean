import Stubwright.Proofs.Disk.Components
import Mathlib.Data.List.DropRight

namespace Stubwright.Disk

open Text

def EndsInStep (todo : List String) : Prop :=
  ∃ front name, todo = front ++ [name] ∧ moves name = true

theorem endsInStep_iff {todo : List String} :
    EndsInStep todo ↔ todo.getLast?.any moves = true := by
  simp only [EndsInStep, Option.any_eq_true, List.getLast?_eq_some_iff]
  constructor
  · rintro ⟨front, name, whole, moving⟩
    exact ⟨name, ⟨front, whole⟩, moving⟩
  · rintro ⟨name, ⟨front, whole⟩, moving⟩
    exact ⟨front, name, whole, moving⟩

instance : DecidablePred EndsInStep := fun _ => decidable_of_iff _ endsInStep_iff.symm

namespace Path

variable {path above : String} {first name : String} {rest front segments : List String}

def names (path : String) : List String :=
  (pieces path).filter isComponent

/-- Nothing follows the last name of a path. -/
def IsTrim (path : String) : Prop :=
  names path = [] ∨ EndsInStep (steps path)

theorem moves_of_isComponent (member : name ∈ pieces path) (counts : isComponent name = true) :
    moves name = true := by
  rw [moves_of_mem_pieces member]
  simpa using ne_period_of_isComponent counts

theorem endsInStep_steps (whole : pieces path = front ++ [name]) (counts : isComponent name = true) :
    EndsInStep (steps path) := by
  have filled : (name != "") = true := by simpa using ne_empty_of_isComponent counts
  have last : ¬ (path.toList.getLast? == some '/') = true := by
    rw [beq_iff_eq]
    intro slash
    obtain ⟨start, rfl⟩ := exists_front_of_slash slash
    have ended : pieces (start ++ "/") = pieces start ++ [""] := by
      rw [← pieces_empty, ← pieces_append_slash, String.append_empty]
    rw [ended, List.append_singleton_inj] at whole
    simp [← whole.2] at filled
  have member : name ∈ pieces path := by simp [whole]
  refine ⟨front.filter (· != ""), name, ?_, moves_of_isComponent member counts⟩
  have alone : [name].filter (· != "") = [name] := List.filter_cons_of_pos filled
  rw [steps, if_neg last, whole, List.filter_append, alone]

theorem isTrim_of_pieces (whole : pieces path = first :: rest)
    (trimmed : trimPieces rest = rest) : IsTrim path := by
  rcases trimPieces_cases rest with nothing | ⟨front, name, ended, counts⟩
  · rw [trimmed] at nothing
    subst nothing
    by_cases counts : isComponent first = true
    · have alone : pieces path = [] ++ [first] := whole
      exact .inr (endsInStep_steps alone counts)
    · exact .inl (by rw [names, whole, List.filter_cons_of_neg counts, List.filter_nil])
  · rw [trimmed] at ended
    have split_last : pieces path = first :: front ++ [name] := by
      rw [whole, ended]
      rfl
    exact .inr (endsInStep_steps split_last counts)

theorem trimPieces_trimPieces (segments : List String) :
    trimPieces (trimPieces segments) = trimPieces segments := by
  rw [trimPieces, trimPieces, List.reverse_reverse, List.dropWhile_idempotent]

theorem filter_trimPieces (segments : List String) :
    (trimPieces segments).filter isComponent = segments.filter isComponent := by
  have dropped : (segments.reverse.takeWhile (!isComponent ·)).filter isComponent = [] := by
    refine List.filter_eq_nil_iff.mpr fun piece member counts => ?_
    simpa [counts] using List.mem_takeWhile_imp member
  have whole := congrArg (List.filter isComponent)
    (List.takeWhile_append_dropWhile (p := (!isComponent ·)) (l := segments.reverse))
  rw [List.filter_append, dropped, List.nil_append] at whole
  rw [trimPieces, List.filter_reverse, whole, List.filter_reverse, List.reverse_reverse]

/-- One path stands right above another. -/
structure Rung (above path : String) : Prop where
  text : above.toList <+: path.toList
  pieces : ∀ piece ∈ pieces above, piece ∈ pieces path ∨ piece = ""
  absolute : isAbsolute above = isAbsolute path
  trim : IsTrim above
  names : above = "" ∧ names path = [] ∨ ∃ name, names path = names above ++ [name]

theorem names_of_pieces (whole : pieces path = first :: rest) :
    names path = (first :: trimPieces rest).filter isComponent := by
  rw [names, whole, List.filter_cons, List.filter_cons, filter_trimPieces]

theorem names_of_long (whole : pieces path = first :: rest)
    (trimmed : trimPieces rest = front ++ [name]) (counts : isComponent name = true) :
    names path = (first :: trimPieces front).filter isComponent ++ [name] := by
  have alone : [name].filter isComponent = [name] := List.filter_cons_of_pos counts
  rw [names_of_pieces whole, trimmed, ← List.cons_append, List.filter_append, alone,
    List.filter_cons, List.filter_cons, filter_trimPieces]

theorem names_of_top (top : parent? path = none) : names path = [] := by
  obtain ⟨first, rest, whole⟩ := List.exists_cons_of_ne_nil (pieces_ne_nil path)
  rcases trimPieces_cases rest with nothing | ⟨front, name, trimmed, -⟩
  · rw [parent?_of_short whole nothing] at top
    split at top
    · rename_i bare
      have empty : first = "" := by
        rw [Bool.or_eq_true, decide_eq_true_iff] at bare
        exact bare.elim (fun absolute => ((isAbsolute_iff whole).mp absolute).1) id
      rw [names_of_pieces whole, nothing, empty]
      rfl
    · cases top
  · rw [parent?_of_long whole trimmed] at top
    cases top

theorem rung_empty (relative : isAbsolute path = false) (whole : pieces path = first :: rest)
    (nothing : trimPieces rest = []) : Rung "" path := by
  refine ⟨List.nil_prefix, fun piece member => .inr (by simpa [pieces_empty] using member),
    relative.symm, .inl rfl, ?_⟩
  rw [names_of_pieces whole, nothing]
  by_cases counts : isComponent first = true
  · exact .inr ⟨first, List.filter_cons_of_pos counts⟩
  · exact .inl ⟨rfl, List.filter_cons_of_neg counts⟩

theorem rung_root (absolute : isAbsolute path = true) (whole : pieces path = first :: rest)
    (trimmed : trimPieces rest = front ++ [name]) (nothing : trimPieces front = [])
    (counts : isComponent name = true) : Rung "/" path := by
  have bare : first = "" := ((isAbsolute_iff whole).mp absolute).1
  have slash : path.toList.head? = some '/' := by simpa [isAbsolute] using absolute
  obtain ⟨tail, text⟩ := List.head?_eq_some_iff.mp slash
  refine ⟨⟨tail, text.symm⟩, fun piece member => .inr ?_, absolute.symm, .inl rfl, .inr ⟨name, ?_⟩⟩
  · have none_but_empty : pieces "/" = ["", ""] := rfl
    simpa [none_but_empty] using member
  · rw [names_of_long whole trimmed counts, nothing, bare]
    rfl

theorem join_front (between : List Char) {front : List (List Char)} (some_front : front ≠ [])
    (more : List (List Char)) : Text.join between front <+: Text.join between (front ++ more) := by
  induction more using List.reverseRecOn with
  | nil => simp
  | append_singleton more piece ih =>
      rw [← List.append_assoc, join_concat, if_neg (by simp [some_front]), List.append_assoc]
      exact ih.trans (List.prefix_append _ _)

theorem toList_eq_join (path : String) :
    path.toList = Text.join ['/'] ((pieces path).map String.toList) := by
  have back : String.toList ∘ String.ofList = id := funext fun _ => String.toList_ofList
  rw [pieces, List.map_map, back, List.map_id, join_cut]

theorem rung_intercalate (apart : ¬ (isAbsolute path = true ∧ trimPieces front = []))
    (whole : pieces path = first :: rest) (trimmed : trimPieces rest = front ++ [name])
    (counts : isComponent name = true) :
    Rung ("/".intercalate (first :: trimPieces front)) path := by
  obtain ⟨cut, absolute⟩ := cut_parent whole trimmed apart
  obtain ⟨more, split_rest⟩ := trimPieces_of_trimmed trimmed
  have kept : pieces path = first :: trimPieces front ++ more := by
    rw [whole, List.cons_append, split_rest]
  refine ⟨?_, fun piece member => .inl ?_, absolute, isTrim_of_pieces cut (trimPieces_trimPieces _),
    .inr ⟨name, ?_⟩⟩
  · rw [toList_eq_join, toList_eq_join, cut, kept, List.map_append]
    exact join_front _ (by simp) _
  · rw [kept]
    rw [cut] at member
    exact List.mem_append_left _ member
  · rw [names_of_long whole trimmed counts, names_of_pieces cut, trimPieces_trimPieces]

theorem rung_of_parent? (found : parent? path = some above) : Rung above path := by
  obtain ⟨first, rest, whole⟩ := List.exists_cons_of_ne_nil (pieces_ne_nil path)
  rcases trimPieces_cases rest with nothing | ⟨front, name, trimmed, counts⟩
  · rw [parent?_of_short whole nothing] at found
    split at found
    · cases found
    · rename_i relative
      obtain rfl : above = "" := (Option.some.inj found).symm
      simp only [Bool.or_eq_true, not_or, Bool.not_eq_true] at relative
      exact rung_empty relative.1 whole nothing
  · rw [parent?_of_long whole trimmed] at found
    split at found
    · rename_i atRoot
      simp only [Bool.and_eq_true, List.isEmpty_iff] at atRoot
      obtain rfl : above = "/" := (Option.some.inj found).symm
      exact rung_root atRoot.1 whole trimmed atRoot.2 counts
    · rename_i apart
      obtain rfl := Option.some.inj found
      exact rung_intercalate (by simpa using apart) whole trimmed counts

inductive Ladder : String → List String → Prop
  | top {path : String} (top : parent? path = none) : Ladder path [path]
  | rung {path above : String} {higher : List String} (found : parent? path = some above)
      (up : Ladder above higher) : Ladder path (path :: higher)

theorem Rung.length_lt (rung : Rung above path) (found : parent? path = some above) :
    above.length < path.length := by
  refine Nat.lt_of_le_of_ne rung.text.length_le fun same => ?_
  have equal : above = path := String.toList_inj.mp (rung.text.eq_of_length same)
  subst equal
  rcases rung.names with ⟨rfl, -⟩ | ⟨name, longer⟩
  · cases found
  · simp at longer

theorem ladder_ancestorsWithin {steps : Nat} (enough : path.length ≤ steps) :
    Ladder path (ancestorsWithin steps path) := by
  induction steps generalizing path with
  | zero =>
      obtain rfl : path = "" := String.length_eq_zero_iff.mp (Nat.le_zero.mp enough)
      exact .top rfl
  | succ steps ih =>
      rw [ancestorsWithin]
      cases found : parent? path with
      | none => exact .top found
      | some above =>
          have shorter := (rung_of_parent? found).length_lt found
          exact .rung found (ih (by omega))

theorem ladder_ancestors (path : String) : Ladder path (ancestors path) :=
  ladder_ancestorsWithin le_rfl

/-- A path that takes no step upwards and that the system takes, with all of its names; the empty path
included. -/
structure IsWalkable (path : String) : Prop where
  downwards : ".." ∉ pieces path
  fits : ∀ piece ∈ pieces path, piece.utf8ByteSize ≤ longestName
  zero : '\x00' ∉ path.toList
  short : path.utf8ByteSize ≤ longestPath

theorem IsWalkable.usable (walkable : IsWalkable path) (filled : path ≠ "") : IsUsable path :=
  ⟨filled, walkable.zero, walkable.short⟩

theorem IsWalkable.of_front (walkable : IsWalkable path) (text : above.toList <+: path.toList)
    (subset : ∀ piece ∈ pieces above, piece ∈ pieces path ∨ piece = "") : IsWalkable above := by
  refine ⟨fun up => ?_, fun piece member => ?_, fun zero => walkable.zero (text.subset zero), ?_⟩
  · rcases subset _ up with member | nothing
    · exact walkable.downwards member
    · exact absurd nothing (by decide)
  · rcases subset _ member with member | rfl
    · exact walkable.fits piece member
    · exact Nat.zero_le _
  · obtain ⟨tail, whole⟩ := text
    have path_eq : path = above ++ String.ofList tail := by
      rw [← String.toList_inj, String.toList_append, String.toList_ofList, whole]
    have short := walkable.short
    rw [path_eq, String.utf8ByteSize_append] at short
    omega

theorem Rung.isWalkable (rung : Rung above path) (walkable : IsWalkable path) : IsWalkable above :=
  walkable.of_front rung.text rung.pieces

namespace Ladder

variable {paths : List String}

/-- What a path has, everything above it has if every rung hands it up. -/
theorem induct (ladder : Ladder path paths) {holds : String → Prop}
    (climb : ∀ above path, Rung above path → holds path → holds above) (start : holds path) :
    ∀ above ∈ paths, holds above := by
  induction ladder with
  | top => simpa using start
  | rung found _ ih =>
      intro other member
      rcases List.mem_cons.mp member with rfl | higher
      · exact start
      · exact ih (climb _ _ (rung_of_parent? found) start) other higher

theorem isWalkable (ladder : Ladder path paths) (walkable : IsWalkable path) :
    ∀ above ∈ paths, IsWalkable above :=
  ladder.induct (fun _ _ rung walkable => rung.isWalkable walkable) walkable

theorem isAbsolute_eq (ladder : Ladder path paths) :
    ∀ above ∈ paths, isAbsolute above = isAbsolute path :=
  ladder.induct (fun _ _ rung same => rung.absolute.trans same) rfl

theorem names_front (ladder : Ladder path paths) : ∀ above ∈ paths, names above <+: names path := by
  refine ladder.induct (fun above between rung front => ?_) List.prefix_rfl
  rcases rung.names with ⟨rfl, -⟩ | ⟨name, longer⟩
  · exact List.nil_prefix
  · rw [longer] at front
    exact (List.prefix_append _ _).trans front

theorem isTrim (ladder : Ladder path paths) : ∀ above ∈ paths, above = path ∨ IsTrim above := by
  cases ladder with
  | top => simp
  | rung found up =>
      have trim := up.induct (fun _ _ rung _ => rung.trim) (rung_of_parent? found).trim
      intro above member
      exact (List.mem_cons.mp member).imp id (trim above)

/-- Above a path with names there are only paths with fewer. -/
theorem eq_of_names (ladder : Ladder path paths) (some_name : names path ≠ []) :
    ∀ above ∈ paths, names above = names path → above = path := by
  cases ladder with
  | top => simp
  | rung found up =>
      intro above member same
      rcases List.mem_cons.mp member with here | higher
      · exact here
      · obtain ⟨name, longer⟩ :=
          (rung_of_parent? found).names.resolve_left fun both => some_name both.2
        have shorter := (up.names_front above higher).length_le
        rw [same, longer, List.length_append, List.length_singleton] at shorter
        omega

theorem head (ladder : Ladder path paths) : ∃ higher, paths = path :: higher := by
  cases ladder with
  | top => exact ⟨[], rfl⟩
  | rung => exact ⟨_, rfl⟩

theorem covers (ladder : Ladder path paths) {front : List String} (part : front <+: names path) :
    ∃ above ∈ paths, names above = front := by
  induction ladder with
  | @top path top =>
      rw [names_of_top top, List.prefix_nil] at part
      exact ⟨path, by simp, by rw [names_of_top top, part]⟩
  | @rung path above higher found up ih =>
      by_cases whole : front = names path
      · exact ⟨path, by simp, whole.symm⟩
      have part_above : front <+: names above := by
        rcases (rung_of_parent? found).names with ⟨-, nothing⟩ | ⟨name, longer⟩
        · rw [nothing, List.prefix_nil] at part
          exact absurd (part.trans nothing.symm) whole
        · rw [longer] at part whole
          exact (List.prefix_concat_iff.mp part).resolve_left whole
      obtain ⟨other, member, same⟩ := ih part_above
      exact ⟨other, List.mem_cons_of_mem _ member, same⟩

end Ladder

end Path

end Stubwright.Disk
