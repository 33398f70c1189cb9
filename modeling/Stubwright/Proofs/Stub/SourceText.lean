import Stubwright.Proofs.Text.Lines
import Stubwright.Stub.CompilationUnit
import Stubwright.Stub.Rendering

namespace Stubwright

open Text

namespace SourceText

def indented (source : SourceText) (line : List Char) : List Char :=
  if line.isEmpty then [] else source.indentation ++ line

def withLines (source : SourceText) (all : List (List Char)) : SourceText :=
  { source with written := source.written ++ unlines all }

theorem withLines_withLines (source : SourceText) (all more : List (List Char)) :
    (source.withLines all).withLines more = source.withLines (all ++ more) := by
  simp [withLines]

@[simp]
theorem indented_withLines (source : SourceText) (all : List (List Char)) :
    (source.withLines all).indented = source.indented := rfl

theorem deeper_withLines (source : SourceText) (all : List (List Char)) :
    (source.withLines all).deeper = source.deeper.withLines all := rfl

theorem shallower_withLines (source : SourceText) (all : List (List Char)) :
    (source.withLines all).shallower = source.shallower.withLines all := rfl

theorem shallower_deeper (source : SourceText) : source.deeper.shallower = source := rfl

theorem indented_start (indent : String) (line : List Char) :
    (start indent).indented line = line := by
  cases line <;> rfl

theorem indented_deeper_start (indent : String) {line : List Char} (filled : line ≠ []) :
    (start indent).deeper.indented line = indent.toList ++ line := by
  simp [indented, filled, indentation, deeper, start]

theorem toList_text_withLines (indent : String) (all : List (List Char)) :
    ((start indent).withLines all).text.toList = unlines all := by
  simp [text, withLines, start]

theorem writeLine_eq (source : SourceText) (line : List Char) :
    source.writeLine line = source.withLines [source.indented line] := by
  cases line <;> simp [writeLine, withLines, indented]

theorem writeLines_eq (source : SourceText) (text : List Char) :
    source.writeLines text = source.withLines ((lines text).map source.indented) := by
  have folded (all : List (List Char)) (source : SourceText) :
      all.foldl writeLine source = source.withLines (all.map source.indented) := by
    induction all generalizing source with
    | nil => simp [withLines]
    | cons line all ih =>
        rw [List.foldl_cons, ih, writeLine_eq, withLines_withLines, indented_withLines,
          List.singleton_append, List.map_cons]
  exact folded (lines text) source

/-- The lines of several members, with one empty line between neighbours. -/
theorem writeMembers_eq (source : SourceText) (members : List String) :
    CompilationUnit.writeMembers source members =
      source.withLines (spaced
        (members.map fun member => (lines member.toList).map source.indented)) := by
  induction members generalizing source with
  | nil => simp [CompilationUnit.writeMembers, withLines, spaced_nil]
  | cons member others ih =>
      cases others with
      | nil => simp [CompilationUnit.writeMembers, writeLines_eq, spaced_singleton]
      | cons next others =>
          have blank : source.indented [] = [] := rfl
          have step : CompilationUnit.writeMembers source (member :: next :: others) =
              CompilationUnit.writeMembers ((source.writeLines member.toList).writeLine [])
                (next :: others) := rfl
          rw [step, ih, writeLines_eq, writeLine_eq, withLines_withLines, withLines_withLines]
          simp only [indented_withLines, blank, List.map_cons, spaced_cons_cons,
            List.singleton_append]

end SourceText

namespace CompilationUnit

def packageHead (unit : CompilationUnit) : List (List Char) :=
  if unit.packageName = "" then [] else [("package " ++ unit.packageName ++ ";").toList, []]

def allLines (unit : CompilationUnit) (memberLines : List (List Char)) : List (List Char) :=
  unit.packageHead ++ unit.headLine.toList :: (memberLines ++ [['\x7d']])

def memberLines (settings : StubSettings) (unit : CompilationUnit) : List (List Char) :=
  spaced (unit.members.map fun member =>
    (lines member.toList).map (SourceText.start settings.indent).deeper.indented)

theorem writeLine_headLine (settings : StubSettings) (unit : CompilationUnit) :
    (unit.writePackage (.start settings.indent)).writeLine unit.headLine.toList =
      (SourceText.start settings.indent).withLines
        (unit.packageHead ++ [unit.headLine.toList]) := by
  rw [writePackage, packageHead]
  by_cases unnamed : unit.packageName = ""
  · rw [if_pos (by simpa using unnamed), if_pos unnamed, SourceText.writeLine_eq,
      SourceText.indented_start, List.nil_append]
  · rw [if_neg (by simpa using unnamed), if_neg unnamed]
    simp only [SourceText.writeLine_eq, SourceText.withLines_withLines,
      SourceText.indented_withLines, SourceText.indented_start, List.cons_append, List.nil_append]

theorem toList_sourceText (settings : StubSettings) (unit : CompilationUnit) :
    (unit.sourceText settings).toList = unlines (unit.allLines (unit.memberLines settings)) := by
  -- The level goes up for the members and back for the brace, and every step adds whole lines.
  rw [sourceText, writeLine_headLine, SourceText.deeper_withLines, SourceText.writeMembers_eq,
    SourceText.withLines_withLines, SourceText.indented_withLines, SourceText.shallower_withLines,
    SourceText.shallower_deeper, SourceText.writeLine_eq, SourceText.indented_withLines,
    SourceText.indented_start, SourceText.withLines_withLines, SourceText.toList_text_withLines]
  simp only [allLines, memberLines, spaced, List.append_assoc, List.cons_append, List.nil_append]

end CompilationUnit

namespace Stub

def blockLines (indent head : String) (statement : Option String) : List (List Char) :=
  (head ++ " \x7b").toList ::
    ((statement.map fun statement => (indent ++ statement).toList).toList ++ [['\x7d']])

theorem toList_block {indent head : String} {statement : Option String}
    (filled : ∀ written ∈ statement, written ≠ "") :
    (block indent head statement).toList = unlines (blockLines indent head statement) := by
  cases statement with
  | none =>
      simp [block, blockLines, SourceText.text, SourceText.start, SourceText.writeLine,
        SourceText.deeper, SourceText.shallower, SourceText.indentation]
  | some written =>
      have kept : written ≠ "" := filled written rfl
      simp [block, blockLines, SourceText.text, SourceText.start, SourceText.writeLine,
        SourceText.deeper, SourceText.shallower, SourceText.indentation, kept]

end Stub

end Stubwright
