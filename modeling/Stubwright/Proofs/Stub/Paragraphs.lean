import Stubwright.Proofs.Stub.Construction
import Stubwright.Proofs.Stub.Layout

/-!
The text of a unit line by line. Members stand one level deep with an empty line between neighbours,
and no line of a member is empty, so the paragraphs between the header and the last brace are the
members, less one indentation.
-/
namespace Stubwright

open Text

namespace Text

variable {line : List Char} {block : List (List Char)} {blocks : List (List (List Char))}

/-- What stands between empty lines; no lines are no paragraph. -/
def paragraphs (all : List (List Char)) : List (List (List Char)) :=
  if all = [] then [] else all.splitOn []

/-- Lines that make a paragraph, each of them with something to see. -/
structure IsBlock (block : List (List Char)) : Prop where
  filled : block ≠ []
  isLine : ∀ line ∈ block, IsLine line
  visible : ∀ line ∈ block, ∃ c ∈ line, isBlank c = false

theorem IsBlock.ne_nil (whole : IsBlock block) (member : line ∈ block) : line ≠ [] := by
  obtain ⟨c, inside, -⟩ := whole.visible line member
  exact List.ne_nil_of_mem inside

theorem IsBlock.head?_ne (whole : IsBlock block) : block.head? ≠ some [] := fun first =>
  whole.ne_nil (List.mem_of_head? first) rfl

theorem IsBlock.getLast?_ne (whole : IsBlock block) : block.getLast? ≠ some [] := fun last =>
  whole.ne_nil (List.mem_of_getLast? last) rfl

theorem spaced_eq_nil (whole : ∀ block ∈ blocks, IsBlock block) :
    spaced blocks = [] ↔ blocks = [] := by
  constructor
  · intro nothing
    rcases blocks with _ | ⟨block, _ | ⟨next, blocks⟩⟩
    · rfl
    · rw [spaced_singleton] at nothing
      exact absurd nothing (whole block (by simp)).filled
    · simp [spaced_cons_cons] at nothing
  · rintro rfl
    rfl

theorem paragraphs_spaced (whole : ∀ block ∈ blocks, IsBlock block) :
    paragraphs (spaced blocks) = blocks := by
  rw [paragraphs]
  split
  · rename_i nothing
    exact ((spaced_eq_nil whole).mp nothing).symm
  · rename_i some_line
    refine List.splitOn_intercalate [] (fun block member empty => ?_) fun nothing => ?_
    · exact (whole block member).ne_nil empty rfl
    · exact some_line ((spaced_eq_nil whole).mpr nothing)

theorem mem_spaced (member : line ∈ spaced blocks) :
    line = [] ∨ ∃ block ∈ blocks, line ∈ block := by
  induction blocks with
  | nil => cases member
  | cons block others ih =>
      cases others with
      | nil =>
          rw [spaced_singleton] at member
          exact .inr ⟨block, by simp, member⟩
      | cons next others =>
          rw [spaced_cons_cons] at member
          rcases List.mem_append.mp member with here | further
          · exact .inr ⟨block, by simp, here⟩
          · rcases List.mem_cons.mp further with rfl | later
            · exact .inl rfl
            · rcases ih later with empty | ⟨other, listed, inside⟩
              · exact .inl empty
              · exact .inr ⟨other, List.mem_cons_of_mem _ listed, inside⟩

theorem head?_spaced (whole : ∀ block ∈ blocks, IsBlock block) :
    (spaced blocks).head? ≠ some [] := by
  rcases blocks with _ | ⟨block, _ | ⟨next, blocks⟩⟩
  · simp [spaced]
  · rw [spaced_singleton]
    exact (whole block (by simp)).head?_ne
  · have first := whole block (by simp)
    rw [spaced_cons_cons, List.head?_append_of_ne_nil _ first.filled]
    exact first.head?_ne

theorem getLast?_spaced (whole : ∀ block ∈ blocks, IsBlock block) :
    (spaced blocks).getLast? ≠ some [] := by
  induction blocks with
  | nil => simp [spaced]
  | cons block others ih =>
      have later : ∀ block ∈ others, IsBlock block :=
        fun block listed => whole block (List.mem_cons_of_mem _ listed)
      cases others with
      | nil =>
          rw [spaced_singleton]
          exact (whole block (by simp)).getLast?_ne
      | cons next others =>
          -- Behind the empty line come more lines, and the last of them is the last of all.
          have some_line : spaced (next :: others) ≠ [] := by simp [spaced_eq_nil later]
          have last := List.getLast?_eq_some_getLast some_line
          have kept := ih later
          rw [last] at kept
          rw [spaced_cons_cons, List.getLast?_append, List.getLast?_cons, last]
          exact kept

end Text

namespace Method

variable {method : Method} {indent : String}

theorem IsUnbroken.isBlock (unbroken : method.IsUnbroken) (flat : '\n' ∉ indent.toList) :
    IsBlock (method.heading.text.toList :: (method.bodyLines indent ++ [['\x7d']])) where
  filled := List.cons_ne_nil _ _
  isLine := unbroken.isLine flat
  visible := by
    intro line member
    rcases List.mem_cons.mp member with rfl | later
    · exact ⟨'\x7b', by simp [Heading.toList_text], by decide⟩
    · rcases List.mem_append.mp later with inBody | closing
      · obtain ⟨value, -, rfl⟩ := mem_bodyLines.mp inBody
        exact ⟨';', by simp, by decide⟩
      · exact ⟨'\x7d', by simp [List.mem_singleton.mp closing], by decide⟩

end Method

namespace Constructor

variable {constructor : Constructor} {indent className : String}

theorem IsUnbroken.isBlock (unbroken : constructor.IsUnbroken) (named : '\n' ∉ className.toList)
    (flat : '\n' ∉ indent.toList) :
    IsBlock [(constructor.heading className).text.toList,
      (indent ++ constructor.superCall).toList, ['\x7d']] where
  filled := List.cons_ne_nil _ _
  isLine := unbroken.isLine named flat
  visible := by
    intro line member
    simp only [List.mem_cons, List.not_mem_nil, or_false] at member
    rcases member with rfl | rfl | rfl
    · exact ⟨'\x7b', by simp [Heading.toList_text], by decide⟩
    · exact ⟨';', by simp [superCall], by decide⟩
    · exact ⟨'\x7d', by simp, by decide⟩

end Constructor

namespace Text.IsBlock

variable {block : List (List Char)} {indent : String}

theorem indented_eq (whole : IsBlock block) :
    block.map (SourceText.start indent).deeper.indented = block.map (indent.toList ++ ·) :=
  List.map_congr_left fun _ member => SourceText.indented_deeper_start indent (whole.ne_nil member)

/-- A block stays one under an indentation, and is there again without it. -/
theorem indented (whole : IsBlock block) (flat : '\n' ∉ indent.toList) :
    IsBlock (block.map (SourceText.start indent).deeper.indented) where
  filled := by simp [whole.filled]
  isLine := by
    rw [whole.indented_eq]
    intro line member
    obtain ⟨bare, inside, rfl⟩ := List.mem_map.mp member
    exact (whole.isLine bare inside).append (whole.ne_nil inside) flat
  visible := by
    rw [whole.indented_eq]
    intro line member
    obtain ⟨bare, inside, rfl⟩ := List.mem_map.mp member
    obtain ⟨c, seen, visible⟩ := whole.visible bare inside
    exact ⟨c, List.mem_append_right _ seen, visible⟩

theorem map_drop_indented (whole : IsBlock block) :
    (block.map (SourceText.start indent).deeper.indented).map (List.drop indent.toList.length) =
      block := by
  rw [whole.indented_eq, List.map_map]
  have dropped : List.drop indent.toList.length ∘ (indent.toList ++ ·) = id :=
    funext fun line => List.drop_left
  rw [dropped, List.map_id]

end Text.IsBlock

/-- No name of a type or of its members holds a line feed. -/
structure Lineage.IsUnbroken (lineage : Lineage) : Prop where
  name : '\n' ∉ lineage.self.name.binaryName.toList
  constructors : ∀ constructor ∈ lineage.self.constructors, constructor.IsUnbroken
  methods : ∀ method ∈ lineage.memberWalk, method.IsUnbroken

namespace CompilationUnit

variable {settings : StubSettings} {lineage : Lineage} {unit : CompilationUnit}

/-- A text with nothing but paragraphs between header and brace, which are the members of the unit:
the constructor's stub, if there is one, and the stubs of the abstract members in their order. -/
structure LaidOut (settings : StubSettings) (lineage : Lineage) (unit : CompilationUnit)
    (between : List (List Char)) : Prop where
  text : (unit.sourceText settings).toList = unlines (unit.allLines between)
  lines : Text.lines (unit.sourceText settings).toList = unit.allLines between
  unnamed : unit.packageHead = [] ↔ lineage.self.name.packageName = ""
  members : (paragraphs between).map
    (fun block => unlines (block.map (List.drop settings.indent.toList.length))) =
      unit.members.map String.toList
  constructor : ∀ text ∈ unit.constructor, ∃ constructor ∈ lineage.self.constructors,
    text = constructor.stub settings.indent unit.className
  methods : unit.methods = lineage.abstractMembers.map (Method.stub settings.indent)
  indented : ∀ line ∈ between, line = [] ∨ settings.indent.toList <+: line
  blank : ∀ line ∈ between, (∀ c ∈ line, isBlank c = true) → line = []
  front : between.head? ≠ some []
  back : between.getLast? ≠ some []

theorem constructor_of_implementation (accepted : lineage.implementation settings = .ok unit) :
    ∀ text ∈ unit.constructor, ∃ constructor ∈ lineage.self.constructors,
      text = constructor.stub settings.indent unit.className := by
  obtain ⟨constructor, stub, rfl⟩ := Lineage.unitWith_of_implementation accepted
  rintro text found
  cases kind : lineage.isInterface with
  | true =>
      rw [Lineage.constructorStub_of_interface settings kind] at stub
      cases stub
      cases found
  | false =>
      rcases Lineage.constructorStub_of_class settings kind with ⟨none, -⟩ |
        ⟨chosen, rendered, ⟨before, after, split, -⟩, -⟩ | ⟨failed, -⟩
      · rw [none] at stub
        cases stub
        cases found
      · rw [rendered, Except.ok.injEq] at stub
        have same := Option.mem_unique found (Option.mem_def.mpr stub.symm)
        exact ⟨chosen, by simp [split], same⟩
      · rw [failed] at stub
        cases stub

structure IsUnbroken (unit : CompilationUnit) : Prop where
  packageName : '\n' ∉ unit.packageName.toList
  className : '\n' ∉ unit.className.toList
  target : '\n' ∉ unit.target.toList

theorem isUnbroken_of_implementation (unbroken : lineage.IsUnbroken)
    (suffix : '\n' ∉ settings.suffix.toList)
    (accepted : lineage.implementation settings = .ok unit) : unit.IsUnbroken := by
  have simple : '\n' ∉ lineage.self.name.simpleName.toList := fun member =>
    unbroken.name (TypeName.mem_binaryName_of_simpleName member)
  obtain ⟨constructor, -, rfl⟩ := Lineage.unitWith_of_implementation accepted
  constructor
  case packageName =>
    exact fun member => unbroken.name (TypeName.mem_binaryName_of_packageName member)
  case className => simp [Lineage.unitWith, StubSettings.className, simple, suffix]
  case target =>
    rw [Lineage.unitWith, TypeName.sourceName, swapped, String.toList_ofList,
      mem_swap_of_ne (by decide) (by decide)]
    exact unbroken.name

theorem IsUnbroken.isLine_headLine (unbroken : unit.IsUnbroken) : IsLine unit.headLine.toList := by
  have keyword : '\n' ∉ unit.relation.keyword.toList := by
    cases unit.relation <;> decide
  have brace : IsLine " \x7b".toList := ⟨by decide, by decide⟩
  unfold headLine
  rw [String.toList_append]
  refine brace.append (by decide) ?_
  simp only [String.toList_append, List.mem_append, not_or]
  exact ⟨⟨⟨⟨⟨by decide, unbroken.className⟩, by decide⟩, keyword⟩, by decide⟩, unbroken.target⟩

theorem IsUnbroken.isLine_packageHead (unbroken : unit.IsUnbroken) :
    ∀ line ∈ unit.packageHead, IsLine line := by
  intro line member
  rw [packageHead] at member
  split at member
  · cases member
  · rcases List.mem_pair.mp member with package | empty
    · rw [package, String.toList_append]
      exact isLine_concat (by simp [unbroken.packageName]) (by decide) (by decide)
    · rw [empty]
      exact ⟨by simp, by simp⟩

theorem isBlock_of_member (unbroken : lineage.IsUnbroken) (indent : '\n' ∉ settings.indent.toList)
    (suffix : '\n' ∉ settings.suffix.toList)
    (accepted : lineage.implementation settings = .ok unit) :
    ∀ member ∈ unit.members,
      IsBlock (lines member.toList) ∧ unlines (lines member.toList) = member.toList := by
  -- Stubs are given as blocks, and the lines of a text made of a block are that block.
  have told {member : String} {block : List (List Char)} (whole : IsBlock block)
      (text : member.toList = unlines block) :
      IsBlock (lines member.toList) ∧ unlines (lines member.toList) = member.toList := by
    rw [text, lines_unlines whole.isLine]
    exact ⟨whole, rfl⟩
  have named := (isUnbroken_of_implementation unbroken suffix accepted).className
  intro member listed
  rcases List.mem_append.mp listed with first | stubbed
  · obtain ⟨constructor, declared, rfl⟩ :=
      constructor_of_implementation accepted member (Option.mem_toList.mp first)
    exact told ((unbroken.constructors constructor declared).isBlock named indent)
      (constructor.toList_stub _ _)
  · rw [Lineage.methods_of_implementation accepted] at stubbed
    obtain ⟨method, abstract, rfl⟩ := List.mem_map.mp stubbed
    have walked := List.mem_of_find?_eq_some (Lineage.mem_abstractMembers.mp abstract).1
    exact told ((unbroken.methods method walked).isBlock indent) (method.toList_stub _)

section Members

variable (whole : ∀ member ∈ unit.members,
  IsBlock (lines member.toList) ∧ unlines (lines member.toList) = member.toList)
  (indent : '\n' ∉ settings.indent.toList)
include whole indent

theorem isBlock_indented :
    ∀ block ∈ unit.members.map fun member =>
      (lines member.toList).map (SourceText.start settings.indent).deeper.indented,
    IsBlock block := by
  intro block member
  obtain ⟨text, listed, rfl⟩ := List.mem_map.mp member
  exact (whole text listed).1.indented indent

theorem isLine_allLines (unbroken : unit.IsUnbroken) :
    ∀ line ∈ unit.allLines (unit.memberLines settings), IsLine line := by
  intro line member
  rcases List.mem_append.mp member with package | further
  · exact unbroken.isLine_packageHead line package
  · rcases List.mem_cons.mp further with rfl | further
    · exact unbroken.isLine_headLine
    · rcases List.mem_append.mp further with inMember | closing
      · rcases mem_spaced inMember with rfl | ⟨block, listed, inside⟩
        · exact ⟨by simp, by simp⟩
        · exact (isBlock_indented whole indent block listed).isLine line inside
      · rw [List.mem_singleton.mp closing]
        exact isLine_singleton (by decide) (by decide)

theorem paragraphs_memberLines :
    (paragraphs (unit.memberLines settings)).map
      (fun block => unlines (block.map (List.drop settings.indent.toList.length))) =
        unit.members.map String.toList := by
  rw [memberLines, paragraphs_spaced (isBlock_indented whole indent), List.map_map]
  refine List.map_congr_left fun member listed => ?_
  rw [Function.comp_apply, (whole member listed).1.map_drop_indented, (whole member listed).2]

omit indent in
theorem indented_of_memberLines {line : List Char} (member : line ∈ unit.memberLines settings) :
    line = [] ∨ settings.indent.toList <+: line := by
  rcases mem_spaced member with empty | ⟨block, listed, inside⟩
  · exact .inl empty
  · obtain ⟨text, present, rfl⟩ := List.mem_map.mp listed
    rw [(whole text present).1.indented_eq] at inside
    obtain ⟨bare, -, rfl⟩ := List.mem_map.mp inside
    exact .inr (List.prefix_append _ _)

theorem empty_of_blank {line : List Char} (member : line ∈ unit.memberLines settings)
    (blank : ∀ c ∈ line, isBlank c = true) : line = [] := by
  rcases mem_spaced member with empty | ⟨block, listed, inside⟩
  · exact empty
  · obtain ⟨c, seen, visible⟩ := (isBlock_indented whole indent block listed).visible line inside
    simp [blank c seen] at visible

end Members

/-- A generated unit keeps its members apart: they are the paragraphs between the line that opens
its class and the brace that ends it. -/
theorem laidOut_of_implementation (unbroken : lineage.IsUnbroken)
    (indent : '\n' ∉ settings.indent.toList) (suffix : '\n' ∉ settings.suffix.toList)
    (accepted : lineage.implementation settings = .ok unit) :
    ∃ between, LaidOut settings lineage unit between := by
  have whole := isBlock_of_member unbroken indent suffix accepted
  have around := isUnbroken_of_implementation unbroken suffix accepted
  have blocks := isBlock_indented whole indent
  refine ⟨unit.memberLines settings, ?_⟩
  constructor
  case text => exact unit.toList_sourceText settings
  case lines => rw [toList_sourceText, lines_unlines (isLine_allLines whole indent around)]
  case unnamed =>
    rw [packageHead, (Target.names_of_implementation accepted).1]
    split <;> simp_all
  case members => exact paragraphs_memberLines whole indent
  case constructor => exact constructor_of_implementation accepted
  case methods => exact Lineage.methods_of_implementation accepted
  case indented => exact fun line => indented_of_memberLines whole
  case blank => exact fun line => empty_of_blank whole indent
  case front => exact head?_spaced blocks
  case back => exact getLast?_spaced blocks

def emptyTask : Lineage where
  self :=
    { name := ⟨"Task"⟩
      kind := .interfaceType
      modifiers := .ofList [.publicAccess, .abstractMember]
      constructors := []
      methods := []
      interfaces := []
      publicMethods := [] }
  ancestors := []

/-- The class of that interface under a name that ends with a line feed. -/
def brokenTask : CompilationUnit where
  packageName := ""
  className := "Task\n"
  relation := .implementing
  target := "Task"
  constructor := none
  methods := []

/-- A suffix with a line feed breaks the line that opens the class. -/
theorem not_laidOut : ¬ ∀ (settings : StubSettings) (lineage : Lineage) (unit : CompilationUnit),
    lineage.IsUnbroken → '\n' ∉ settings.indent.toList →
      lineage.implementation settings = .ok unit →
        ∃ between, LaidOut settings lineage unit between := by
  intro always
  have nothing : emptyTask.memberWalk = [] := rfl
  have unbroken : emptyTask.IsUnbroken := ⟨by decide, by simp [emptyTask], by simp [nothing]⟩
  have accepted : emptyTask.implementation { suffix := "\n" } = .ok brokenTask := by decide +kernel
  obtain ⟨between, laidOut⟩ := always _ _ _ unbroken (by decide) accepted
  have opened : (brokenTask.allLines between).head? = some brokenTask.headLine.toList := rfl
  have first : (lines (brokenTask.sourceText { suffix := "\n" }).toList).head? =
      some "public class Task".toList := by decide +kernel
  rw [laidOut.lines, opened, Option.some_inj] at first
  exact absurd first (by decide +kernel)

/-- A class in a package with a constructor to call and two members to implement. -/
def board : Lineage where
  self :=
    { name := ⟨"kit.Board"⟩
      kind := .classType
      modifiers := .ofList [.publicAccess, .abstractMember]
      constructors := [⟨[.primitive .int], [], .ofList [.publicAccess]⟩]
      methods :=
        [{ name := "clear", declaringType := "kit.Board", returnType := .void, parameters := []
           exceptions := [], modifiers := .ofList [.protectedAccess, .abstractMember] },
          { name := "cells", declaringType := "kit.Board"
            returnType := .array (.primitive .int) 2, parameters := [], exceptions := []
            modifiers := .ofList [.protectedAccess, .abstractMember] }]
      interfaces := []
      publicMethods := [] }
  ancestors := []

/-- Its constructor and its two stubs, each pushed in by the four spaces of the usual settings, are
three paragraphs. -/
theorem laidOut_of_board :
    ∃ unit, board.implementation {} = .ok unit ∧ unit.members.length = 3 ∧
      ∃ between, LaidOut {} board unit between := by
  have unbroken : board.IsUnbroken := ⟨by decide, by decide, by decide⟩
  refine ⟨_, rfl, rfl, ?_⟩
  exact laidOut_of_implementation unbroken (by decide) (by decide) rfl

end CompilationUnit

end Stubwright
