import Stubwright.Disk.Path
import Stubwright.Proofs.Text.Pieces

namespace Stubwright.Disk.Path

open Text

variable {base more path : String} {segments : List String}

theorem ne_empty_of_isComponent {piece : String} (counts : isComponent piece = true) : piece ≠ "" := by
  simp only [isComponent, Bool.and_eq_true, bne_iff_ne] at counts
  exact counts.1

theorem ne_period_of_isComponent {piece : String} (counts : isComponent piece = true) :
    piece ≠ "." := by
  simp only [isComponent, Bool.and_eq_true, bne_iff_ne] at counts
  exact counts.2

def named (path : String) : List String :=
  (pieces path).filter (· != "")

theorem mem_pieces_of_mem_named {piece : String} (member : piece ∈ named path) :
    piece ∈ pieces path :=
  (List.mem_filter.mp member).1

theorem pieces_empty : pieces "" = [""] := rfl

theorem pieces_ne_nil (path : String) : pieces path ≠ [] := by
  simp [pieces, cut_ne_nil]

theorem pieces_of_not_mem (flat : '/' ∉ path.toList) : pieces path = [path] := by
  rw [pieces, cut_of_not_mem flat, List.map_singleton, String.ofList_toList]

theorem pieces_append_slash (base more : String) :
    pieces (base ++ "/" ++ more) = pieces base ++ pieces more := by
  have text : (base ++ "/" ++ more).toList = base.toList ++ '/' :: more.toList := by simp
  rw [pieces, text, cut_append_separator, List.map_append, pieces, pieces]

theorem not_mem_of_mem_pieces {piece : String} (member : piece ∈ pieces path) :
    '/' ∉ piece.toList := by
  obtain ⟨text, cutOut, rfl⟩ := List.mem_map.mp member
  rw [String.toList_ofList]
  exact not_mem_of_mem_cut cutOut

theorem mem_of_mem_pieces {piece : String} {c : Char} (member : piece ∈ pieces path)
    (inside : c ∈ piece.toList) : c ∈ path.toList := by
  obtain ⟨text, cutOut, rfl⟩ := List.mem_map.mp member
  rw [String.toList_ofList] at inside
  exact mem_of_mem_piece cutOut inside

theorem named_ne_nil {c : Char} (member : c ∈ path.toList) (other : c ≠ '/') : named path ≠ [] := by
  obtain ⟨piece, cutOut, inside⟩ := exists_piece_of_mem member other
  have filled : String.ofList piece ≠ "" := by
    intro nothing
    have empty := congrArg String.toList nothing
    rw [String.toList_ofList] at empty
    rw [empty] at inside
    cases inside
  refine List.ne_nil_of_mem (a := String.ofList piece) (List.mem_filter.mpr ⟨?_, by simpa using filled⟩)
  exact List.mem_map_of_mem cutOut

theorem exists_front_of_slash (slash : base.toList.getLast? = some '/') :
    ∃ front, base = front ++ "/" := by
  obtain ⟨front, text⟩ := List.getLast?_eq_some_iff.mp slash
  refine ⟨String.ofList front, String.toList_inj.mp ?_⟩
  simp [text]

@[simp]
theorem isAbsolute_empty : isAbsolute "" = false := rfl

theorem isAbsolute_append (left right : String) :
    isAbsolute (left ++ right) =
      if left = "" then isAbsolute right else isAbsolute left := by
  rw [isAbsolute, String.toList_append, List.head?_append]
  by_cases nothing : left = ""
  · rw [if_pos nothing, nothing, String.toList_empty, List.head?_nil, Option.none_or, isAbsolute]
  · have some_char : left.toList ≠ [] := fun empty => nothing (String.toList_eq_nil_iff.mp empty)
    obtain ⟨c, rest, text⟩ := List.exists_cons_of_ne_nil some_char
    rw [if_neg nothing, isAbsolute, text, List.head?_cons, Option.some_or]

theorem join_of_absolute (absolute : isAbsolute more = true) : join base more = more := by
  rw [join, if_pos absolute]

/-- A relative path is put behind a slash, unless the first path ends in one or is empty. -/
theorem join_cases (base : String) (relative : isAbsolute more = false) :
    (base = "" ∧ join base more = more) ∨
      (∃ front, base = front ++ "/" ∧ join base more = front ++ "/" ++ more) ∨
      base ≠ "" ∧ join base more = base ++ "/" ++ more := by
  by_cases nothing : base = ""
  · subst nothing
    left
    exact ⟨rfl, by simp [join, relative]⟩
  · by_cases slash : base.toList.getLast? = some '/'
    · obtain ⟨front, rfl⟩ := exists_front_of_slash slash
      right; left
      exact ⟨front, rfl, by simp [join, relative]⟩
    · right; right
      exact ⟨nothing, by simp [join, relative, nothing, slash]⟩

theorem isAbsolute_join (base more : String) :
    isAbsolute (join base more) = (isAbsolute base || isAbsolute more) := by
  cases absolute : isAbsolute more with
  | true => rw [join_of_absolute absolute, absolute, Bool.or_true]
  | false =>
      rw [Bool.or_false]
      rcases join_cases base absolute with ⟨rfl, joined⟩ | ⟨front, rfl, joined⟩ | ⟨some_base, joined⟩
      · rw [joined, absolute, isAbsolute_empty]
      · rw [joined, isAbsolute_append (front ++ "/"), if_neg]
        simp
      · rw [joined, String.append_assoc, isAbsolute_append, if_neg some_base]

theorem filter_pieces_empty {chosen : String → Bool} (skips : chosen "" = false) :
    (pieces "").filter chosen = [] := by
  rw [pieces_empty, List.filter_cons_of_neg (by simp [skips]), List.filter_nil]

theorem filter_pieces_join {chosen : String → Bool} (skips : chosen "" = false)
    (relative : isAbsolute more = false) :
    (pieces (join base more)).filter chosen =
      (pieces base).filter chosen ++ (pieces more).filter chosen := by
  have nothing := filter_pieces_empty skips
  rcases join_cases base relative with ⟨rfl, joined⟩ | ⟨front, rfl, joined⟩ | ⟨-, joined⟩
  · rw [joined, nothing, List.nil_append]
  · have ended : pieces (front ++ "/") = pieces front ++ pieces "" := by
      rw [← pieces_append_slash, String.append_empty]
    rw [joined, pieces_append_slash, ended, List.filter_append, List.filter_append, nothing,
      List.append_nil]
  · rw [joined, pieces_append_slash, List.filter_append]

theorem named_join (relative : isAbsolute more = false) :
    named (join base more) = named base ++ named more :=
  filter_pieces_join rfl relative

/-- What stands before the components that are names: the root, or a period at the very front. -/
def lead (path : String) : List String :=
  if isAbsolute path then ["/"] else if (pieces path).head? = some "." then ["."] else []

theorem components_eq (path : String) :
    components path = lead path ++ (pieces path).filter isComponent := by
  obtain ⟨first, rest, cutOut⟩ := exists_cut_eq_cons '/' path.toList
  have whole : pieces path = String.ofList first :: rest.map String.ofList := by
    rw [pieces, cutOut, List.map_cons]
  rw [components, lead, whole]
  cases absolute : isAbsolute path with
  | true =>
      have text : path.toList.head? = some '/' := by simpa [isAbsolute] using absolute
      obtain ⟨tail, text⟩ := List.head?_eq_some_iff.mp text
      rw [text, cut_cons_self, List.cons.injEq] at cutOut
      simp [← cutOut.1, isComponent]
  | false =>
      by_cases nothing : String.ofList first = ""
      · simp [nothing, isComponent]
      · by_cases period : String.ofList first = "."
        · simp [period, isComponent]
        · have counts : isComponent (String.ofList first) = true := by
            simp only [isComponent, Bool.and_eq_true, bne_iff_ne]
            exact ⟨nothing, period⟩
          simp [nothing, period, counts]

theorem head?_pieces_append (front : String) (more : String) :
    (pieces (front ++ "/" ++ more)).head? = (pieces front).head? := by
  obtain ⟨first, rest, cutOut⟩ := exists_cut_eq_cons '/' front.toList
  rw [pieces_append_slash, pieces, cutOut]
  rfl

theorem lead_join (some_base : base ≠ "") (relative : isAbsolute more = false) :
    lead (join base more) = lead base := by
  rw [lead, lead, isAbsolute_join, relative, Bool.or_false]
  rcases join_cases base relative with ⟨rfl, -⟩ | ⟨front, rfl, joined⟩ | ⟨-, joined⟩
  · contradiction
  · have ended := head?_pieces_append front ""
    rw [String.append_empty] at ended
    rw [joined, head?_pieces_append, ended]
  · rw [joined, head?_pieces_append]

theorem components_join (some_base : base ≠ "") (relative : isAbsolute more = false) :
    components (join base more) = components base ++ (pieces more).filter isComponent := by
  rw [components_eq, components_eq, lead_join some_base relative, filter_pieces_join rfl relative,
    List.append_assoc]

def stem (base : String) : String :=
  if base.isEmpty || base.toList.getLast? == some '/' then base else base ++ "/"

theorem join_eq_stem (relative : isAbsolute more = false) : join base more = stem base ++ more := by
  rw [join, stem, if_neg (by simp [relative])]
  split <;> rfl

theorem stem_of_ne (some_base : base ≠ "") :
    stem base = if base.toList.getLast? = some '/' then base else base ++ "/" := by
  rw [stem, String.isEmpty_eq_false_iff.mpr some_base, Bool.false_or]
  simp only [beq_iff_eq]

theorem getLast?_stem (some_base : base ≠ "") : (stem base).toList.getLast? = some '/' := by
  rw [stem_of_ne some_base]
  split
  · assumption
  · simp

theorem join_ne_empty (some_base : base ≠ "") (more : String) : join base more ≠ "" := by
  intro nothing
  cases absolute : isAbsolute more with
  | true =>
      rw [join_of_absolute absolute] at nothing
      simp [nothing] at absolute
  | false =>
      rw [join_eq_stem absolute] at nothing
      have last := getLast?_stem some_base
      have empty := congrArg String.toList nothing
      rw [String.toList_append, String.toList_empty, List.append_eq_nil_iff] at empty
      simp [empty.1] at last

theorem stem_stem_append (base more : String) :
    stem (stem base ++ more) = if more = "" then stem base else stem base ++ stem more := by
  by_cases nothing : more = ""
  · subst nothing
    rw [if_pos rfl, String.append_empty]
    by_cases empty : base = ""
    · rw [empty]
      rfl
    · rw [stem, if_pos (by simp [getLast?_stem empty])]
  · have some_char : more.toList ≠ [] := fun empty => nothing (String.toList_eq_nil_iff.mp empty)
    have last : (stem base ++ more).toList.getLast? = more.toList.getLast? := by
      rw [String.toList_append, List.getLast?_append, List.getLast?_eq_some_getLast some_char,
        Option.some_or]
    have filled : stem base ++ more ≠ "" := by simp [nothing]
    rw [if_neg nothing, stem_of_ne filled, stem_of_ne nothing, last]
    split
    · rfl
    · rw [String.append_assoc]

theorem join_assoc {inner : String} (relative : isAbsolute inner = false)
    (relativeToo : isAbsolute more = false) :
    join (join base inner) more = join base (join inner more) := by
  have whole : isAbsolute (join inner more) = false := by
    rw [isAbsolute_join, relative, relativeToo, Bool.or_false]
  rw [join_eq_stem relativeToo, join_eq_stem relative, join_eq_stem whole, join_eq_stem relativeToo,
    stem_stem_append]
  by_cases nothing : inner = ""
  · rw [if_pos nothing, nothing]
    rfl
  · rw [if_neg nothing, String.append_assoc]

/-- A path behind any other, an empty one included, if it does not begin with a period alone. -/
theorem components_join_of_head (relative : isAbsolute more = false)
    (front : (pieces more).head? ≠ some ".") :
    components (join base more) = components base ++ (pieces more).filter isComponent := by
  by_cases nothing : base = ""
  · subst nothing
    have alone : join "" more = more := by
      rw [join_eq_stem relative]
      exact String.empty_append
    rw [alone, components_eq, lead, if_neg (by simp [relative]), if_neg front]
    rfl
  · exact components_join nothing relative

theorem isAbsolute_foldl_join (base : String) (segments : List String) :
    isAbsolute (segments.foldl join base) = (isAbsolute base || segments.any isAbsolute) := by
  induction segments generalizing base with
  | nil => rw [List.foldl_nil, List.any_nil, Bool.or_false]
  | cons segment others ih =>
      rw [List.foldl_cons, ih, isAbsolute_join, List.any_cons, Bool.or_assoc]

theorem isAbsolute_ofSegments (segments : List String) :
    isAbsolute (ofSegments segments) = segments.any isAbsolute := by
  rw [ofSegments, isAbsolute_foldl_join, isAbsolute_empty, Bool.false_or]

theorem filter_pieces_foldl_join {chosen : String → Bool} (skips : chosen "" = false)
    (relative : segments.any isAbsolute = false) (base : String) :
    (pieces (segments.foldl join base)).filter chosen =
      (pieces base).filter chosen ++ segments.flatMap fun segment => (pieces segment).filter chosen := by
  induction segments generalizing base with
  | nil => rw [List.foldl_nil, List.flatMap_nil, List.append_nil]
  | cons segment others ih =>
      rw [List.any_cons, Bool.or_eq_false_iff] at relative
      rw [List.foldl_cons, ih relative.2, filter_pieces_join skips relative.1, List.flatMap_cons,
        List.append_assoc]

theorem filter_pieces_ofSegments {chosen : String → Bool} (skips : chosen "" = false)
    (relative : segments.any isAbsolute = false) :
    (pieces (ofSegments segments)).filter chosen =
      segments.flatMap fun segment => (pieces segment).filter chosen := by
  rw [ofSegments, filter_pieces_foldl_join skips relative, filter_pieces_empty skips,
    List.nil_append]

def Flat (segments : List String) : Prop :=
  ∀ segment ∈ segments, segment ≠ "" ∧ '/' ∉ segment.toList

theorem isAbsolute_eq_false_of_not_mem (flat : '/' ∉ path.toList) : isAbsolute path = false := by
  rw [isAbsolute, beq_eq_false_iff_ne]
  exact fun front => flat (List.mem_of_head? front)

theorem pieces_append_of_not_mem {tail : String} (flat : '/' ∉ tail.toList) (path : String) :
    pieces (path ++ tail) =
      (pieces path).dropLast ++ [String.ofList (afterLast '/' path.toList) ++ tail] := by
  rw [pieces, pieces, String.toList_append, cut_append_of_not_mem flat, List.map_append,
    List.map_dropLast, List.map_singleton, String.ofList_append, String.ofList_toList]

theorem isAbsolute_append_of_not_mem {tail : String} (flat : '/' ∉ tail.toList) (path : String) :
    isAbsolute (path ++ tail) = isAbsolute path := by
  rw [isAbsolute_append]
  split
  · rename_i nothing
    rw [nothing, isAbsolute_eq_false_of_not_mem flat, isAbsolute_empty]
  · rfl

theorem pieces_of_text (clean : ∀ segment ∈ segments, '/' ∉ segment.toList)
    (some_segment : segments ≠ [])
    (text : path.toList = Text.join ['/'] (segments.map String.toList)) :
    pieces path = segments := by
  have cleanTexts : ∀ piece ∈ segments.map String.toList, '/' ∉ piece := by
    intro piece member
    obtain ⟨segment, listed, rfl⟩ := List.mem_map.mp member
    exact clean segment listed
  have back : String.ofList ∘ String.toList = id := funext fun _ => String.ofList_toList
  rw [pieces, text, cut_join cleanTexts (by simpa using some_segment), List.map_map, back,
    List.map_id]

theorem pieces_intercalate (clean : ∀ segment ∈ segments, '/' ∉ segment.toList)
    (some_segment : segments ≠ []) : pieces ("/".intercalate segments) = segments := by
  refine pieces_of_text clean some_segment ?_
  rw [join_eq_intercalate, String.toList_intercalate]
  rfl

theorem toList_ofSegments (flat : Flat segments) :
    (ofSegments segments).toList = Text.join ['/'] (segments.map String.toList) := by
  induction segments using List.reverseRecOn with
  | nil => rfl
  | append_singleton front last ih =>
      have above : Flat front := fun segment member => flat segment (List.mem_append_left _ member)
      have text := ih above
      have relative := isAbsolute_eq_false_of_not_mem (flat last (by simp)).2
      have whole : ofSegments (front ++ [last]) = join (ofSegments front) last := by
        rw [ofSegments, List.foldl_append]
        rfl
      rw [whole, List.map_append, List.map_singleton, join_concat]
      by_cases alone : front = []
      · subst alone
        rw [join_eq_stem relative]
        exact congrArg String.toList String.empty_append
      · have cutAgain := pieces_of_text (fun segment member => (above segment member).2) alone text
        rw [if_neg (by simpa using alone), ← text]
        rcases join_cases (ofSegments front) relative with
          ⟨nothing, -⟩ | ⟨stop, ended, -⟩ | ⟨-, joined⟩
        · rw [nothing, pieces_empty] at cutAgain
          exact absurd rfl (above "" (by simp [← cutAgain])).1
        · have pointless : stop ++ "/" = stop ++ "/" ++ "" := String.append_empty.symm
          rw [ended, pointless, pieces_append_slash, pieces_empty] at cutAgain
          exact absurd rfl (above "" (by simp [← cutAgain])).1
        · rw [joined]
          simp

theorem pieces_ofSegments (flat : Flat segments) (some_segment : segments ≠ []) :
    pieces (ofSegments segments) = segments :=
  pieces_of_text (fun segment member => (flat segment member).2) some_segment
    (toList_ofSegments flat)

theorem ofSegments_eq_intercalate (flat : Flat segments) :
    ofSegments segments = "/".intercalate segments := by
  refine String.toList_inj.mp ?_
  rw [toList_ofSegments flat, join_eq_intercalate, String.toList_intercalate]
  rfl

/-- Empty segments add nothing but the slash that the next one is put behind. -/
theorem stem_foldl_join (clean : ∀ segment ∈ segments, '/' ∉ segment.toList) (base : String) :
    stem (segments.foldl join base) =
      stem base ++ String.join ((segments.filter (· != "")).map (· ++ "/")) := by
  induction segments generalizing base with
  | nil => simp
  | cons segment others ih =>
      rw [List.forall_mem_cons] at clean
      rw [List.foldl_cons, ih clean.2, join_eq_stem (isAbsolute_eq_false_of_not_mem clean.1),
        stem_stem_append]
      by_cases nothing : segment = ""
      · rw [if_pos nothing, nothing, List.filter_cons_of_neg (by simp)]
      · have open_end : segment.toList.getLast? ≠ some '/' :=
          fun slash => clean.1 (List.mem_of_getLast? slash)
        rw [if_neg nothing, stem_of_ne nothing, if_neg open_end,
          List.filter_cons_of_pos (by simpa using nothing), List.map_cons, String.join_cons,
          String.append_assoc]

theorem foldl_join_concat {front : List String} {last : String}
    (clean : ∀ segment ∈ front, '/' ∉ segment.toList) (flat : '/' ∉ last.toList) (base : String) :
    (front ++ [last]).foldl join base =
      stem base ++ "/".intercalate (front.filter (· != "") ++ [last]) := by
  rw [List.foldl_append, List.foldl_cons, List.foldl_nil,
    join_eq_stem (isAbsolute_eq_false_of_not_mem flat), stem_foldl_join clean, intercalate_concat,
    String.append_assoc]

end Stubwright.Disk.Path
