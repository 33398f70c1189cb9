import Stubwright.Proofs.Stub.SourceText
import Mathlib.Data.List.Infix

namespace Stubwright

open Text

namespace SourceText

inductive Edit where
  | line (text : List Char)
  | deeper
  | shallower
deriving DecidableEq, Repr

def Edit.apply : Edit → SourceText → SourceText
  | line text, source => source.writeLine text
  | deeper, source => source.deeper
  | shallower, source => source.shallower

def run (edits : List Edit) (source : SourceText) : SourceText :=
  edits.foldl (fun source edit => edit.apply source) source

/-- No step leads out of the level where the first one begins. -/
def StaysInside (edits : List Edit) : Prop :=
  ∀ front, front <+: edits → front.count .shallower ≤ front.count .deeper

instance (edits : List Edit) : Decidable (StaysInside edits) :=
  decidable_of_iff (∀ front ∈ edits.inits, front.count .shallower ≤ front.count .deeper)
    (by simp only [List.mem_inits, StaysInside])

variable {source fresh direct : SourceText} {edits : List Edit} {edit : Edit} {line : List Char}

theorem run_concat (front : List Edit) (edit : Edit) (source : SourceText) :
    run (front ++ [edit]) source = edit.apply (run front source) := by
  rw [run, List.foldl_append]
  rfl

theorem StaysInside.before (inside : StaysInside (edits ++ [edit])) : StaysInside edits :=
  fun front earlier => inside front (earlier.trans (List.prefix_append _ _))

theorem StaysInside.entered (inside : StaysInside (edits ++ [.shallower])) :
    edits.count .shallower < edits.count .deeper := by
  have whole := inside _ List.prefix_rfl
  have apart : List.count Edit.deeper [.shallower] = 0 := rfl
  rw [List.count_append, List.count_append, List.count_singleton_self, apart] at whole
  exact whole

theorem level_run (inside : StaysInside edits) (source : SourceText) :
    (run edits source).level + edits.count .shallower = source.level + edits.count .deeper := by
  induction edits using List.reverseRecOn with
  | nil => rfl
  | append_singleton front edit ih =>
      have before := ih inside.before
      rw [run_concat, List.count_append, List.count_append]
      cases edit with
      | line text => exact before
      | deeper =>
          change (run front source).level + 1 + (front.count .shallower + 0) =
            source.level + (front.count .deeper + 1)
          omega
      | shallower =>
          have entered := inside.entered
          change (run front source).level - 1 + (front.count .shallower + 1) =
            source.level + (front.count .deeper + 0)
          omega

theorem isLine_indented (plain : IsLine line) (unbroken : '\n' ∉ source.indent) :
    IsLine (source.indented line) := by
  by_cases blank : line = []
  · rw [blank]
    exact ⟨List.not_mem_nil, by simp [indented]⟩
  · have clean : '\n' ∉ source.indentation := by
      rw [indentation, List.mem_flatten]
      rintro ⟨piece, copy, inside⟩
      rw [List.eq_of_mem_replicate copy] at inside
      exact unbroken inside
    rw [indented, if_neg (by simpa using blank)]
    exact plain.append blank clean

/-- One text is written from the outermost level on, the other one from the level of a third. -/
structure Follows (source fresh direct : SourceText) : Prop where
  indentFresh : fresh.indent = source.indent
  indentDirect : direct.indent = source.indent
  level : direct.level = source.level + fresh.level
  lines : ∃ all, (∀ line ∈ all, IsLine line) ∧ fresh.written = unlines all ∧
    direct.written = source.written ++ unlines (all.map source.indented)

/-- A line that is indented twice is indented by both levels together, and blank if it was blank. -/
theorem Follows.indented_indented (follows : Follows source fresh direct) (line : List Char) :
    source.indented (fresh.indented line) = direct.indented line := by
  cases line with
  | nil => rfl
  | cons c rest =>
      have together : direct.indentation = source.indentation ++ fresh.indentation := by
        rw [indentation, indentation, indentation, follows.indentFresh, follows.indentDirect,
          follows.level, ← List.replicate_append_replicate, List.flatten_append]
      rw [indented, indented, indented, together]
      simp

theorem Follows.apply (follows : Follows source fresh direct) (unbroken : '\n' ∉ source.indent)
    (plain : ∀ text, edit = .line text → IsLine text)
    (inside : edit = .shallower → fresh.level ≠ 0) :
    Follows source (edit.apply fresh) (edit.apply direct) := by
  obtain ⟨all, lines, writtenFresh, writtenDirect⟩ := follows.lines
  cases edit with
  | line text =>
      refine ⟨follows.indentFresh, follows.indentDirect, follows.level,
        all ++ [fresh.indented text], ?_, ?_, ?_⟩
      · have clean : IsLine (fresh.indented text) :=
          isLine_indented (plain text rfl) (follows.indentFresh ▸ unbroken)
        intro line member
        rcases List.mem_append.mp member with earlier | last
        · exact lines line earlier
        · rwa [List.mem_singleton.mp last]
      · rw [Edit.apply, writeLine_eq, withLines, writtenFresh, unlines_append]
      · rw [Edit.apply, writeLine_eq, withLines, writtenDirect, List.map_append, unlines_append,
          List.append_assoc, List.map_singleton, follows.indented_indented]
  | deeper =>
      have level : direct.level + 1 = source.level + (fresh.level + 1) := by
        rw [follows.level, Nat.add_assoc]
      exact ⟨follows.indentFresh, follows.indentDirect, level, follows.lines⟩
  | shallower =>
      have some_level := inside rfl
      have level : direct.level - 1 = source.level + (fresh.level - 1) := by
        rw [follows.level]
        omega
      exact ⟨follows.indentFresh, follows.indentDirect, level, follows.lines⟩

theorem follows_run {indent : String} (same : source.indent = indent.toList)
    (unbroken : '\n' ∉ source.indent) (plain : ∀ text, .line text ∈ edits → IsLine text)
    (inside : StaysInside edits) :
    Follows source (run edits (start indent)) (run edits source) := by
  induction edits using List.reverseRecOn with
  | nil =>
      refine ⟨same.symm, rfl, rfl, [], by simp, rfl, ?_⟩
      exact (List.append_nil _).symm
  | append_singleton front edit ih =>
      have before := ih (fun text member => plain text (List.mem_append_left _ member)) inside.before
      rw [run_concat, run_concat]
      refine before.apply unbroken ?_ ?_
      · rintro text rfl
        exact plain text (by simp)
      · rintro rfl
        have level := level_run inside.before (start indent)
        have outermost : (start indent).level = 0 := rfl
        have entered := inside.entered
        omega

theorem Follows.writeLines_eq (follows : Follows source fresh direct) :
    source.writeLines fresh.text.toList = { direct with level := source.level } := by
  obtain ⟨all, lines, writtenFresh, writtenDirect⟩ := follows.lines
  rw [SourceText.writeLines_eq, text, String.toList_ofList, writtenFresh, lines_unlines lines,
    withLines, ← writtenDirect, ← follows.indentDirect]

theorem run_eq_of_balanced (inside : StaysInside edits)
    (balanced : edits.count .shallower = edits.count .deeper) (source : SourceText) :
    run edits source = { run edits source with level := source.level } := by
  have counted := level_run inside source
  have level : (run edits source).level = source.level := by omega
  rw [← level]

/-- Indentation composes: what was written at the outermost level can be written again, line by line,
at any other level, and is there what would have been written there in the first place. -/
theorem writeLines_run (indent : String) (edits : List Edit) (source : SourceText)
    (same : source.indent = indent.toList) (unbroken : '\n' ∉ indent.toList)
    (plain : ∀ text, .line text ∈ edits → IsLine text) (inside : StaysInside edits) :
    ∃ added,
      source.writeLines (run edits (start indent)).text.toList =
        { source with written := source.written ++ added } ∧
      (run edits source).written = source.written ++ added ∧
      (edits.count .shallower = edits.count .deeper →
        run edits source = { source with written := source.written ++ added }) := by
  have follows := follows_run same (same ▸ unbroken) plain inside
  obtain ⟨all, -, -, written⟩ := follows.lines
  have whole : { run edits source with level := source.level } =
      { source with written := source.written ++ unlines (all.map source.indented) } := by
    dsimp only
    rw [written, follows.indentDirect]
  refine ⟨unlines (all.map source.indented), follows.writeLines_eq.trans whole, written,
    fun balanced => ?_⟩
  rw [run_eq_of_balanced inside balanced, whole]

/-- A block with a blank line and another block in it. -/
def nestedEdits : List Edit :=
  [.line "a \x7b".toList, .deeper, .line [], .line "b \x7b".toList, .deeper, .line "c;".toList,
    .shallower, .line "\x7d".toList, .shallower, .line "\x7d".toList]

theorem writeLines_run_nested :
    run nestedEdits ⟨[' '], 2, "x\n".toList⟩ =
      writeLines ⟨[' '], 2, "x\n".toList⟩ (run nestedEdits (start " ")).text.toList := by
  have plain : ∀ text, .line text ∈ nestedEdits → IsLine text := by
    intro text member
    simp only [nestedEdits, List.mem_cons, List.not_mem_nil, or_false, false_or, reduceCtorEq,
      Edit.line.injEq] at member
    rcases member with rfl | rfl | rfl | rfl | rfl | rfl <;> constructor <;> decide
  obtain ⟨added, again, -, direct⟩ := writeLines_run " " nestedEdits ⟨[' '], 2, "x\n".toList⟩ rfl
    (by decide) plain (by decide)
  exact (direct (by decide)).trans again.symm

def blockEdits (head : String) (statement : Option String) : List Edit :=
  [.line (head ++ " \x7b").toList, .deeper] ++
    (statement.map fun statement => .line statement.toList).toList ++ [.shallower, .line ['\x7d']]

theorem block_eq_run (indent head : String) (statement : Option String) :
    Stub.block indent head statement = (run (blockEdits head statement) (start indent)).text := by
  cases statement <;> rfl

/-- A block is indented with the members of a class as if it were written there. -/
theorem writeLines_block {indent head : String} {statement : Option String}
    (same : source.indent = indent.toList) (unbroken : '\n' ∉ source.indent)
    (plainHead : '\n' ∉ head.toList)
    (plain : ∀ written ∈ statement, IsLine written.toList) :
    source.writeLines (Stub.block indent head statement).toList =
      run (blockEdits head statement) source := by
  have opening : IsLine (head ++ " \x7b").toList := by
    have spelled : (head ++ " \x7b").toList = (head.toList ++ [' ']) ++ ['\x7b'] := by simp
    rw [spelled]
    exact isLine_concat (by simp [plainHead]) (by decide) (by decide)
  have lines : ∀ text, .line text ∈ blockEdits head statement → IsLine text := by
    intro text member
    rcases List.mem_append.mp member with written | closing
    · rcases List.mem_append.mp written with start | body
      · obtain rfl : text = (head ++ " \x7b").toList := by
          simpa only [List.mem_cons, List.not_mem_nil, reduceCtorEq, or_false, Edit.line.injEq]
            using start
        exact opening
      · obtain ⟨statement, given, rfl⟩ : ∃ written ∈ statement, written.toList = text := by
          simpa using body
        exact plain statement given
    · obtain rfl : text = ['\x7d'] := by simpa using closing
      exact isLine_singleton (by decide) (by decide)
  have inside : StaysInside (blockEdits head statement) := by
    cases statement with
    | none => exact of_decide_eq_true rfl
    | some written => exact of_decide_eq_true rfl
  have follows := follows_run same unbroken lines inside
  rw [block_eq_run, follows.writeLines_eq, ← run_eq_of_balanced inside]
  cases statement <;> rfl

end SourceText

end Stubwright
