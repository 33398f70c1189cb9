import Stubwright.Text.Pieces
import Mathlib.Data.List.Induction
import Mathlib.Data.List.TakeWhile

namespace Stubwright.Text

variable {separator c : Char} {text left right piece front tail more other : List Char}
  {pieces others : List (List Char)}

theorem cut_cons_self (separator : Char) (text : List Char) :
    cut separator (separator :: text) = [] :: cut separator text := by
  rw [cut, if_pos rfl]

theorem exists_cut_eq_cons (separator : Char) (text : List Char) :
    ∃ first rest, cut separator text = first :: rest :=
  List.exists_cons_of_ne_nil (cut_ne_nil separator text)

theorem cut_cons_of_ne {first : List Char} {rest : List (List Char)} (other : c ≠ separator)
    (pieces : cut separator text = first :: rest) :
    cut separator (c :: text) = (c :: first) :: rest := by
  rw [cut, if_neg other, pieces]

theorem cut_append_separator (separator : Char) (left right : List Char) :
    cut separator (left ++ separator :: right) = cut separator left ++ cut separator right := by
  induction left with
  | nil => rw [List.nil_append, cut_cons_self, cut, List.singleton_append]
  | cons c left ih =>
      by_cases same : c = separator
      · rw [same, List.cons_append, cut_cons_self, cut_cons_self, ih, List.cons_append]
      · obtain ⟨first, rest, cutLeft⟩ := exists_cut_eq_cons separator left
        rw [cutLeft, List.cons_append] at ih
        rw [List.cons_append, cut_cons_of_ne same ih, cut_cons_of_ne same cutLeft,
          List.cons_append]

theorem cut_of_not_mem (absent : separator ∉ text) : cut separator text = [text] := by
  induction text with
  | nil => rfl
  | cons c text ih =>
      rw [List.mem_cons, not_or] at absent
      exact cut_cons_of_ne (Ne.symm absent.1) (ih absent.2)

theorem not_mem_of_mem_cut (member : piece ∈ cut separator text) : separator ∉ piece := by
  induction text generalizing piece with
  | nil =>
      rw [cut, List.mem_singleton] at member
      simp [member]
  | cons c text ih =>
      obtain ⟨first, rest, pieces⟩ := exists_cut_eq_cons separator text
      by_cases same : c = separator
      · rw [same, cut_cons_self] at member
        rcases List.mem_cons.mp member with rfl | later
        · simp
        · exact ih later
      · rw [cut_cons_of_ne same pieces] at member
        rcases List.mem_cons.mp member with rfl | later
        · have clean : separator ∉ first := ih (by simp [pieces])
          simp [clean, Ne.symm same]
        · exact ih (by simp [pieces, later])

theorem mem_of_mem_piece (member : piece ∈ cut separator text) (inside : c ∈ piece) :
    c ∈ text := by
  induction text generalizing piece with
  | nil =>
      rw [cut, List.mem_singleton] at member
      simp [member] at inside
  | cons head text ih =>
      obtain ⟨first, rest, pieces⟩ := exists_cut_eq_cons separator text
      by_cases same : head = separator
      · rw [same, cut_cons_self] at member
        rcases List.mem_cons.mp member with rfl | later
        · simp at inside
        · exact List.mem_cons_of_mem _ (ih later inside)
      · rw [cut_cons_of_ne same pieces] at member
        rcases List.mem_cons.mp member with rfl | later
        · rcases List.mem_cons.mp inside with rfl | deeper
          · exact List.mem_cons_self
          · exact List.mem_cons_of_mem _ (ih (by simp [pieces]) deeper)
        · exact List.mem_cons_of_mem _ (ih (by simp [pieces, later]) inside)

theorem exists_piece_of_mem (member : c ∈ text) (other : c ≠ separator) :
    ∃ piece ∈ cut separator text, c ∈ piece := by
  induction text with
  | nil => cases member
  | cons first text ih =>
      by_cases same : first = separator
      · subst same
        obtain ⟨piece, cutOut, inside⟩ := ih (List.mem_of_ne_of_mem other member)
        exact ⟨piece, by rw [cut_cons_self]; exact List.mem_cons_of_mem _ cutOut, inside⟩
      · obtain ⟨piece, others, cutTail⟩ := exists_cut_eq_cons separator text
        rw [cut_cons_of_ne same cutTail]
        rcases List.mem_cons.mp member with rfl | later
        · exact ⟨c :: piece, List.mem_cons_self, List.mem_cons_self⟩
        · obtain ⟨found, cutOut, inside⟩ := ih later
          rw [cutTail] at cutOut
          rcases List.mem_cons.mp cutOut with rfl | further
          · exact ⟨first :: found, List.mem_cons_self, List.mem_cons_of_mem _ inside⟩
          · exact ⟨found, List.mem_cons_of_mem _ further, inside⟩

/-- What follows the last separator goes to the last piece. -/
theorem cut_append_of_not_mem (absent : separator ∉ right) :
    cut separator (left ++ right) =
      (cut separator left).dropLast ++ [afterLast separator left ++ right] := by
  induction left using List.reverseRecOn generalizing right with
  | nil => simp [cut_of_not_mem absent, cut, afterLast]
  | append_singleton left c ih =>
      rw [List.append_assoc, List.singleton_append]
      by_cases same : c = separator
      · rw [same, cut_append_separator, cut_append_separator, cut_of_not_mem absent, cut,
          List.dropLast_concat]
        simp [afterLast]
      · have stays : separator ∉ c :: right := by simp [absent, Ne.symm same]
        have alone : separator ∉ [c] := by simp [Ne.symm same]
        have last : afterLast separator (left ++ [c]) = afterLast separator left ++ [c] := by
          simp [afterLast, same]
        rw [ih stays, ih alone, List.dropLast_concat, last, List.append_assoc,
          List.singleton_append]

theorem join_cons_cons (between piece next : List Char) (others : List (List Char)) :
    join between (piece :: next :: others) = piece ++ between ++ join between (next :: others) := rfl

theorem join_cut_eq_swap (old new : Char) (text : List Char) :
    join [new] (cut old text) = swap old new text := by
  induction text with
  | nil => rfl
  | cons c text ih =>
      obtain ⟨first, rest, pieces⟩ := exists_cut_eq_cons old text
      rw [pieces] at ih
      by_cases same : c = old
      · rw [same, cut_cons_self, pieces, join_cons_cons, ih]
        simp [swap]
      · rw [cut_cons_of_ne same pieces]
        cases rest with
        | nil =>
            rw [join] at ih ⊢
            rw [ih, swap, swap, List.map_cons, if_neg same]
        | cons next others =>
            rw [join_cons_cons] at ih ⊢
            rw [List.cons_append, List.cons_append, ih, swap, swap, List.map_cons, if_neg same]

theorem join_concat (between piece : List Char) (pieces : List (List Char)) :
    join between (pieces ++ [piece]) =
      if pieces = [] then piece else join between pieces ++ between ++ piece := by
  induction pieces with
  | nil => rfl
  | cons first others ih =>
      cases others with
      | nil => rfl
      | cons next others =>
          rw [if_neg (List.cons_ne_nil _ _)] at ih ⊢
          rw [List.cons_append, List.cons_append, join_cons_cons, ← List.cons_append, ih,
            join_cons_cons]
          simp only [List.append_assoc]

theorem join_eq_intercalate (between : List Char) (pieces : List (List Char)) :
    join between pieces = between.intercalate pieces := by
  induction pieces with
  | nil => rfl
  | cons first others ih =>
      cases others with
      | nil => simp [join, List.intercalate]
      | cons next others =>
          rw [join_cons_cons, ih, List.intercalate, List.intercalate, List.intersperse_cons_cons,
            List.flatten_cons, List.flatten_cons, List.append_assoc]

theorem swap_of_not_mem {old new : Char} (absent : old ∉ text) : swap old new text = text := by
  have stays : ∀ c ∈ text, (if c = old then new else c) = id c := by
    intro c member
    have other : c ≠ old := by
      rintro rfl
      exact absent member
    rw [if_neg other, id]
  rw [swap, List.map_congr_left stays, List.map_id]

theorem swap_append (old new : Char) (left right : List Char) :
    swap old new (left ++ right) = swap old new left ++ swap old new right :=
  List.map_append

theorem swap_swap_eq (old new : Char) (text : List Char) :
    swap new old (swap old new text) = swap new old text := by
  rw [swap, swap, swap, List.map_map]
  refine List.map_congr_left fun c _ => ?_
  by_cases replaced : c = old <;> simp [replaced]

theorem swap_swap {old new : Char} {text : List Char} (unused : new ∉ text) :
    swap new old (swap old new text) = text := by
  rw [swap_swap_eq, swap_of_not_mem unused]

theorem not_mem_swap {old new : Char} (other : old ≠ new) (text : List Char) :
    old ∉ swap old new text := by
  intro member
  obtain ⟨d, -, same⟩ := List.mem_map.mp member
  split at same
  · exact other same.symm
  · contradiction

theorem swap_idem {old new : Char} (other : new ≠ old) (text : List Char) :
    swap old new (swap old new text) = swap old new text :=
  swap_of_not_mem (not_mem_swap other.symm text)

theorem mem_swap_of_ne {c old new : Char} (notOld : c ≠ old) (notNew : c ≠ new)
    (text : List Char) : c ∈ swap old new text ↔ c ∈ text := by
  rw [swap, List.mem_map]
  constructor
  · rintro ⟨d, member, same⟩
    split at same
    · exact absurd same.symm notNew
    · rwa [same] at member
  · intro member
    exact ⟨c, member, if_neg notOld⟩

theorem cut_join (clean : ∀ piece ∈ pieces, separator ∉ piece) (some_piece : pieces ≠ []) :
    cut separator (join [separator] pieces) = pieces := by
  induction pieces with
  | nil => contradiction
  | cons piece others ih =>
      have here : separator ∉ piece := clean piece List.mem_cons_self
      cases others with
      | nil => rw [join, cut_of_not_mem here]
      | cons next others =>
          have rest := ih (fun piece later => clean piece (List.mem_cons_of_mem _ later))
            (List.cons_ne_nil next others)
          rw [join_cons_cons, List.append_assoc, List.singleton_append,
            cut_append_separator, cut_of_not_mem here, rest, List.singleton_append]

theorem not_mem_afterLast (separator : Char) (text : List Char) :
    separator ∉ afterLast separator text := by
  rw [afterLast, List.mem_reverse]
  intro member
  simpa using List.mem_takeWhile_imp member

theorem mem_of_mem_afterLast (member : c ∈ afterLast separator text) : c ∈ text := by
  rw [afterLast, List.mem_reverse] at member
  exact List.mem_reverse.mp ((List.takeWhile_prefix _).subset member)

theorem takeWhile_of_not_mem {c : Char} (absent : c ∉ front)
    (rest : List Char) :
    (front ++ c :: rest).takeWhile (· ≠ c) = front ∧
      (front ++ c :: rest).dropWhile (· ≠ c) = c :: rest := by
  have passed : ∀ d ∈ front, decide (d ≠ c) = true := by
    intro d member
    have other : d ≠ c := by
      rintro rfl
      exact absent member
    simpa using other
  constructor
  · rw [List.takeWhile_append_of_pos passed]
    simp
  · rw [List.dropWhile_append_of_pos passed]
    simp

theorem eq_of_dropWhile_ne (dropped : text.dropWhile (· ≠ separator) = c :: tail) :
    c = separator := by
  have first := List.head?_dropWhile_not (fun c => decide (c ≠ separator)) text
  rw [dropped] at first
  simpa using first

theorem eq_of_cutLast (found : cutLast separator text = some (front, tail)) :
    text = front ++ separator :: tail := by
  have whole : text.reverse.takeWhile (· ≠ separator) ++ text.reverse.dropWhile (· ≠ separator) =
      text.reverse := List.takeWhile_append_dropWhile
  unfold cutLast at found
  simp only at found
  split at found
  · contradiction
  · rename_i head above rest
    simp only [Option.some.injEq, Prod.mk.injEq] at found
    obtain ⟨rfl, rfl⟩ := found
    rw [rest, eq_of_dropWhile_ne rest] at whole
    have turned := congrArg List.reverse whole
    simpa using turned.symm

/-- Two texts that go on with a character after a part without it agree before and behind it. -/
theorem split_inj (absent : c ∉ left) (absentToo : c ∉ right)
    (same : left ++ c :: more = right ++ c :: other) : left = right ∧ more = other := by
  have fronts := congrArg (List.takeWhile (· ≠ c)) same
  have rests := congrArg (List.dropWhile (· ≠ c)) same
  rw [(takeWhile_of_not_mem absent more).1, (takeWhile_of_not_mem absentToo other).1] at fronts
  rw [(takeWhile_of_not_mem absent more).2, (takeWhile_of_not_mem absentToo other).2] at rests
  exact ⟨fronts, List.tail_eq_of_cons_eq rests⟩

theorem join_two_eq (first second : Char) (piece : List Char) (pieces : List (List Char)) :
    join [first, second] (piece :: pieces) = join [first] (piece :: pieces.map (second :: ·)) := by
  induction pieces generalizing piece with
  | nil => rfl
  | cons next pieces ih =>
      rw [join_cons_cons, ih, List.map_cons, join_cons_cons]
      cases pieces <;> simp [join]

/-- Pieces without the separator are told by what they are joined to. -/
theorem join_two_inj {first second : Char} (apart : first ≠ second)
    (clean : ∀ piece ∈ pieces, first ∉ piece) (cleanToo : ∀ piece ∈ others, first ∉ piece)
    (some_piece : pieces ≠ []) (some_other : others ≠ [])
    (same : join [first, second] pieces = join [first, second] others) : pieces = others := by
  obtain ⟨piece, pieces, rfl⟩ := List.exists_cons_of_ne_nil some_piece
  obtain ⟨other, others, rfl⟩ := List.exists_cons_of_ne_nil some_other
  have led {all : List (List Char)} {front : List Char}
      (clean : ∀ piece ∈ front :: all, first ∉ piece) :
      ∀ piece ∈ front :: all.map (second :: ·), first ∉ piece := by
    intro piece member
    rcases List.mem_cons.mp member with rfl | later
    · exact clean _ List.mem_cons_self
    · obtain ⟨bare, listed, rfl⟩ := List.mem_map.mp later
      simp [apart, clean bare (List.mem_cons_of_mem _ listed)]
  rw [join_two_eq, join_two_eq] at same
  have cuts := congrArg (cut first) same
  rw [cut_join (led clean) (List.cons_ne_nil _ _), cut_join (led cleanToo) (List.cons_ne_nil _ _),
    List.cons.injEq] at cuts
  rw [cuts.1, (List.map_inj_right fun _ _ => List.tail_eq_of_cons_eq).mp cuts.2]

theorem not_mem_intercalate {c : Char} {pieces : List String} (between : String)
    (apart : c ∉ between.toList) (clean : ∀ piece ∈ pieces, c ∉ piece.toList) :
    c ∉ (between.intercalate pieces).toList := by
  induction pieces with
  | nil => simp
  | cons piece pieces ih =>
      have rest := ih fun piece later => clean piece (List.mem_cons_of_mem _ later)
      have here := clean piece List.mem_cons_self
      cases pieces with
      | nil => simpa using here
      | cons next pieces =>
          rw [String.intercalate_cons_cons, String.toList_append, String.toList_append,
            List.mem_append, List.mem_append, not_or, not_or]
          exact ⟨⟨here, apart⟩, rest⟩

theorem intercalate_inj {first second : Char} {between : String} {pieces others : List String}
    (spelled : between.toList = [first, second]) (apart : first ≠ second)
    (clean : ∀ piece ∈ pieces, first ∉ piece.toList)
    (cleanToo : ∀ piece ∈ others, first ∉ piece.toList) (some_piece : pieces ≠ [])
    (some_other : others ≠ []) (same : between.intercalate pieces = between.intercalate others) :
    pieces = others := by
  have texts := congrArg String.toList same
  rw [String.toList_intercalate, String.toList_intercalate, spelled, ← join_eq_intercalate,
    ← join_eq_intercalate] at texts
  have lists := join_two_inj apart (by simpa using clean) (by simpa using cleanToo)
    (by simpa using some_piece) (by simpa using some_other) texts
  exact (List.map_inj_right fun _ _ => String.toList_inj.mp).mp lists

theorem cut_swap (old new : Char) (text : List Char) :
    cut new (swap old new text) = text.splitOnP fun c => c == old || c == new := by
  induction text with
  | nil => rfl
  | cons c text ih =>
      have head : swap old new (c :: text) = (if c = old then new else c) :: swap old new text := rfl
      rw [List.splitOnP_cons_eq_if_modifyHead, ← ih, head]
      by_cases cuts : c = old ∨ c = new
      · have same : (if c = old then new else c) = new := by
          split
          · rfl
          · exact cuts.resolve_left ‹_›
        rw [same, cut_cons_self, if_pos (by simpa using cuts)]
      · obtain ⟨notOld, notNew⟩ := not_or.mp cuts
        obtain ⟨first, rest, pieces⟩ := exists_cut_eq_cons new (swap old new text)
        rw [if_neg notOld, cut_cons_of_ne notNew pieces, if_neg (by simpa using cuts), pieces,
          List.modifyHead_cons]

theorem cut_eq_dropLast_append (separator : Char) (text : List Char) :
    cut separator text = (cut separator text).dropLast ++ [afterLast separator text] := by
  have absent : separator ∉ ([] : List Char) := List.not_mem_nil
  calc
    cut separator text = cut separator (text ++ []) := by rw [List.append_nil]
    _ = (cut separator text).dropLast ++ [afterLast separator text] := by
      rw [cut_append_of_not_mem absent, List.append_nil]

theorem intercalate_concat (between : String) (front : List String) (last : String) :
    between.intercalate (front ++ [last]) = String.join (front.map (· ++ between)) ++ last := by
  induction front with
  | nil => simp [String.intercalate_singleton]
  | cons piece front ih =>
      obtain ⟨next, rest, listed⟩ := List.exists_cons_of_ne_nil
        (List.append_ne_nil_of_right_ne_nil front (List.cons_ne_nil last []))
      rw [List.cons_append, listed, String.intercalate_cons_cons, ← listed, ih, List.map_cons,
        String.join_cons, String.append_assoc, String.append_assoc, String.append_assoc]

end Stubwright.Text
