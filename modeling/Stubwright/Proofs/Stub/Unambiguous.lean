import Stubwright.Proofs.Stub.AbstractMembers
import Stubwright.Proofs.Stub.Heading

/-!
What a stub tells of its method. If names are made of plain parts with periods between them, methods
with one stub cannot be told apart in source code: every part of the declaration is read back from
the stub's heading, and its body is that of the return type.
-/
namespace Stubwright

open Text

namespace Text

variable {text : List Char} {c : Char}

/-- Characters that no name holds: blanks, and what stands between names. -/
def endsName (c : Char) : Bool :=
  isBlank c || [',', '(', ')', '\x7b', '\x7d'].contains c

/-- Names with periods between them, none of them empty. -/
def IsDotted (text : List Char) : Prop :=
  ∀ piece ∈ cut '.' text, piece ≠ [] ∧ ∀ c ∈ piece, endsName c = false

instance : DecidablePred IsDotted := fun text =>
  decidable_of_iff
    ((cut '.' text).all fun piece => !piece.isEmpty && piece.all (!endsName ·)) (by simp [IsDotted])

theorem IsDotted.not_mem (dotted : IsDotted text) (ends : endsName c = true) : c ∉ text := by
  intro member
  have other : c ≠ '.' := by
    rintro rfl
    contradiction
  obtain ⟨piece, listed, inside⟩ := exists_piece_of_mem member other
  simp [(dotted piece listed).2 c inside] at ends

theorem IsDotted.ending (dotted : IsDotted text) : text.getLast? ≠ some '.' := by
  intro last
  obtain ⟨front, rfl⟩ := List.getLast?_eq_some_iff.mp last
  have empty : [] ∈ cut '.' (front ++ ['.']) := by
    rw [cut_append_separator]
    simp [cut]
  exact (dotted [] empty).1 rfl

end Text

namespace JavaType

variable {type : JavaType} {c : Char}

def base : JavaType → JavaType
  | array element _ => element
  | other => other

structure IsSpellable (type : JavaType) : Prop where
  flat : type.Flat
  dotted : IsDotted type.base.sourceName.toList

instance : DecidablePred IsSpellable := fun type =>
  decidable_of_iff (type.Flat ∧ IsDotted type.base.sourceName.toList)
    ⟨fun ⟨flat, dotted⟩ => ⟨flat, dotted⟩, fun spellable => ⟨spellable.flat, spellable.dotted⟩⟩

theorem IsSpellable.not_mem (spellable : type.IsSpellable) (ends : endsName c = true) :
    c ∉ type.sourceName.toList := by
  have outside := spellable.dotted.not_mem ends
  have apart : c ∉ ['[', ']'] := by
    intro bracket
    rcases List.mem_pair.mp bracket with rfl | rfl <;> contradiction
  cases type with
  | array element rank => rwa [mem_sourceName_array apart]
  | void | primitive _ | reference _ => exact outside

theorem IsSpellable.newline_not_mem (spellable : type.IsSpellable) :
    '\n' ∉ type.binaryName.toList := by
  rw [← mem_sourceName (by decide) (by decide)]
  exact spellable.not_mem (by decide)

theorem IsSpellable.ending (spellable : type.IsSpellable) :
    type.sourceName.toList.getLast? ≠ some '.' := by
  cases type with
  | array element rank =>
      obtain ⟨rank, rfl⟩ := Nat.exists_eq_add_one_of_ne_zero (Nat.ne_of_gt spellable.flat.1)
      simp [sourceName, brackets_succ]
  | void | primitive _ | reference _ => exact spellable.dotted.ending

end JavaType

/-! What a stub writes for parameters is read back. -/

namespace Stub

variable {written : String} {isVariadic : Bool} {parameters : List JavaType}

def hasDots (written : String) : Bool :=
  ['.', '.', '.'].isSuffixOf written.toList

def bracketed (written : String) : String :=
  match dropEnding? ['.', '.', '.'] written.toList with
  | some front => String.ofList front ++ "[]"
  | none => written

theorem hasDots_append (text : String) : hasDots (text ++ "...") = true := by
  simp [hasDots]

theorem bracketed_append (text : String) : bracketed (text ++ "...") = text ++ "[]" := by
  simp [bracketed, dropEnding?]

theorem hasDots_eq_false (ending : written.toList.getLast? ≠ some '.') :
    hasDots written = false := by
  rw [Bool.eq_false_iff]
  intro dots
  obtain ⟨front, text⟩ := List.isSuffixOf_iff_suffix.mp dots
  exact ending (by simp [← text])

theorem bracketed_eq_self (ending : written.toList.getLast? ≠ some '.') :
    bracketed written = written := by
  have none : ['.', '.', '.'].isSuffixOf written.toList = false := hasDots_eq_false ending
  rw [bracketed, dropEnding?, none]
  rfl

theorem bracketed_writtenTypes (spellable : ∀ type ∈ parameters, type.IsSpellable) :
    (writtenTypes isVariadic parameters).map bracketed = parameters.map JavaType.sourceName := by
  rcases List.eq_nil_or_concat' parameters with rfl | ⟨front, last, rfl⟩
  · rfl
  · -- Only the last type can be written with dots, all others are read as they stand.
    have ahead : (front.map JavaType.sourceName).map bracketed = front.map JavaType.sourceName := by
      rw [List.map_map]
      refine List.map_congr_left fun type listed => ?_
      exact bracketed_eq_self (spellable type (List.mem_append_left _ listed)).ending
    have lastSpellable := spellable last (by simp)
    rw [writtenTypes_concat, List.map_append, List.map_append, ahead, List.map_singleton,
      List.map_singleton]
    split
    · rename_i takes
      have isArray := (Bool.and_eq_true_iff.mp takes).2
      rw [bracketed_append, lastSpellable.flat.component_append isArray]
    · rw [bracketed_eq_self lastSpellable.ending]

theorem hasDots_writtenTypes (spellable : ∀ type ∈ parameters, type.IsSpellable) :
    (writtenTypes isVariadic parameters).getLast?.any hasDots =
      (isVariadic && parameters.getLast?.any JavaType.isArray) := by
  rcases List.eq_nil_or_concat' parameters with rfl | ⟨front, last, rfl⟩
  · simp [writtenTypes]
  · have lastSpellable := spellable last (by simp)
    rw [writtenTypes_concat, List.getLast?_concat, List.getLast?_concat, Option.any_some,
      Option.any_some]
    split
    · rename_i takes
      rw [hasDots_append, takes]
    · rename_i fixed
      rw [hasDots_eq_false lastSpellable.ending, Bool.eq_false_iff.mpr fixed]

end Stub

theorem Modifier.keyword_inj {left right : Modifier} (same : left.keyword = right.keyword) :
    left = right := by
  have found := congrArg ofKeyword? same
  rwa [ofKeyword?_keyword, ofKeyword?_keyword, Option.some_inj] at found

theorem Modifiers.keyword_mem_sourceKeywords {flags : Modifiers} {modifier : Modifier}
    (written : modifier ∈ Modifier.inSource) :
    modifier.keyword ∈ flags.sourceKeywords ↔ flags.has modifier = true := by
  rw [mem_sourceKeywords]
  constructor
  · rintro ⟨other, -, held, same⟩
    rwa [← Modifier.keyword_inj same]
  · exact fun held => ⟨modifier, written, held, rfl⟩

namespace Method

variable {method left right : Method} {indent : String}

structure IsSpellable (method : Method) : Prop where
  name : IsDotted method.name.toList
  returnType : method.returnType.IsSpellable
  parameters : ∀ type ∈ method.parameters, type.IsSpellable
  exceptions : ∀ type ∈ method.exceptions, type.IsSpellable

def takesVariable (method : Method) : Bool :=
  method.modifiers.has .variableArity && method.parameters.getLast?.any JavaType.isArray

/-- The same declaration in source code. -/
structure DeclaresSame (left right : Method) : Prop where
  name : left.name = right.name
  modifiers : ∀ modifier ∈ Modifier.inSource, modifier ≠ .abstractMember →
    left.modifiers.has modifier = right.modifiers.has modifier
  returnType : left.returnType.sourceName = right.returnType.sourceName
  parameters : left.parameters.map JavaType.sourceName = right.parameters.map JavaType.sourceName
  exceptions : left.exceptions.map JavaType.sourceName = right.exceptions.map JavaType.sourceName
  takesVariable : left.takesVariable = right.takesVariable

theorem takesVariable_eq (method : Method) :
    method.takesVariable =
      (method.isVariadic && method.parameters.getLast?.any JavaType.isArray) := by
  rw [takesVariable, isVariadic, Stubwright.isVariadic]
  cases method.parameters <;> simp

theorem IsSpellable.separable (spellable : method.IsSpellable) : method.heading.Separable where
  named := by simp [heading]
  words := by
    intro word member
    rcases List.mem_append.mp member with keyword | named
    · exact ⟨Modifiers.not_mem_sourceKeywords (by decide) word keyword,
        Modifiers.not_mem_sourceKeywords (by decide) word keyword⟩
    · rcases List.mem_pair.mp named with rfl | rfl
      · exact ⟨spellable.returnType.not_mem (by decide), spellable.returnType.not_mem (by decide)⟩
      · exact ⟨spellable.name.not_mem (by decide), spellable.name.not_mem (by decide)⟩
  types := by
    intro written member
    have clean {c : Char} (ends : endsName c = true) (apart : c ∉ ['[', ']', '.']) :=
      Stub.not_mem_writtenTypes apart
        (fun type listed => (spellable.parameters type listed).not_mem ends) written member
    exact ⟨clean (by decide) (by decide), clean (by decide) (by decide)⟩
  exceptions := by
    intro written member
    obtain ⟨type, listed, rfl⟩ := List.mem_map.mp member
    have raised := spellable.exceptions type listed
    exact ⟨raised.not_mem (by decide), raised.not_mem (by decide)⟩

theorem IsSpellable.isUnbroken (spellable : method.IsSpellable) : method.IsUnbroken where
  name := spellable.name.not_mem (by decide)
  returnType := spellable.returnType.newline_not_mem
  parameters type listed := (spellable.parameters type listed).newline_not_mem
  exceptions type listed := (spellable.exceptions type listed).newline_not_mem

/-- A heading tells all that is declared. -/
theorem declaresSame_of_heading (spellable : left.IsSpellable) (spellableToo : right.IsSpellable)
    (same : left.heading = right.heading) : left.DeclaresSame right := by
  have words := congrArg Heading.words same
  have types := congrArg Heading.types same
  have exceptions := congrArg Heading.exceptions same
  -- The return type and the name are the last two words, however many keywords there are.
  obtain ⟨keywords, named⟩ := List.append_inj' words rfl
  obtain ⟨returned, named⟩ := List.cons.inj named
  constructor
  case name => exact List.head_eq_of_cons_eq named
  case modifiers =>
    intro modifier written kept
    have held : left.stubModifiers.has modifier = right.stubModifiers.has modifier := by
      rw [Bool.eq_iff_iff, ← Modifiers.keyword_mem_sourceKeywords written, keywords,
        Modifiers.keyword_mem_sourceKeywords written]
    simpa [has_stubModifiers, written, kept] using held
  case returnType => exact returned
  case parameters =>
    have read := congrArg (List.map Stub.bracketed) types
    rwa [heading, heading, Stub.bracketed_writtenTypes spellable.parameters,
      Stub.bracketed_writtenTypes spellableToo.parameters] at read
  case exceptions => exact exceptions
  case takesVariable =>
    have dots := congrArg (·.getLast?.any Stub.hasDots) types
    simp only [heading, Stub.hasDots_writtenTypes spellable.parameters,
      Stub.hasDots_writtenTypes spellableToo.parameters] at dots
    rw [takesVariable_eq, takesVariable_eq, dots]

theorem declaresSame_of_stub (spellable : left.IsSpellable) (spellableToo : right.IsSpellable)
    (same : left.stub indent = right.stub indent) : left.DeclaresSame right := by
  have texts := congrArg String.toList same
  rw [toList_stub, toList_stub, unlines_cons, unlines_cons] at texts
  have headings := (Heading.eq_of_text_append spellable.separable spellableToo.separable texts).1
  exact declaresSame_of_heading spellable spellableToo headings

/-- The lines of a stub: a heading with the parameters in their order, the body, and a brace. -/
structure IsWritten (indent : String) (method : Method) (heading : Heading)
    (body : List (List Char)) : Prop where
  text : (method.stub indent).toList = unlines (heading.text.toList :: (body ++ [['\x7d']]))
  lines : Text.lines (method.stub indent).toList = heading.text.toList :: (body ++ [['\x7d']])
  words : heading.words =
    method.stubModifiers.sourceKeywords ++ [method.returnType.sourceName, method.name]
  exceptions : heading.exceptions = method.exceptions.map JavaType.sourceName
  counted : heading.types.length = method.parameters.length
  declared : ∀ index (inside : index < heading.types.length),
    heading.declarations[index]? = some (heading.types[index] ++ " p" ++ toString index)
  fixed : method.takesVariable = false →
    heading.types = method.parameters.map JavaType.sourceName
  variadic : method.takesVariable = true →
    ∃ front last, method.parameters = front ++ [last] ∧
      heading.types = front.map JavaType.sourceName ++ [last.component.sourceName ++ "..."] ∧
      last.component.sourceName ++ "[]" = last.sourceName
  empty : body = [] ↔ method.returnType = .void
  /-- An array is returned empty, with a length for its first dimension. -/
  array : ∀ element rank, method.returnType = .array element rank →
    ∃ more, body = [(indent ++ "return " ++ ("new " ++ element.sourceName ++ "[0]" ++ more) ++
        ";").toList] ∧
      "new " ++ element.sourceName ++ "[]" ++ more = "new " ++ method.returnType.sourceName

theorem bodyLines_eq_nil : method.bodyLines indent = [] ↔ method.returnType = .void := by
  simp [bodyLines, JavaType.defaultValue_eq_none]

theorem types_of_fixed (fixed : method.takesVariable = false) :
    method.heading.types = method.parameters.map JavaType.sourceName := by
  rw [takesVariable_eq] at fixed
  rw [heading]
  rcases List.eq_nil_or_concat' method.parameters with none | ⟨front, last, all⟩
  · rw [none]
    rfl
  · rw [all, List.getLast?_concat, Option.any_some] at fixed
    simp [all, Stub.writtenTypes_concat, fixed]

theorem types_of_takesVariable (takes : method.takesVariable = true)
    (spellable : ∀ type ∈ method.parameters, type.IsSpellable) :
    ∃ front last, method.parameters = front ++ [last] ∧
      method.heading.types =
        front.map JavaType.sourceName ++ [last.component.sourceName ++ "..."] ∧
      last.component.sourceName ++ "[]" = last.sourceName := by
  rw [takesVariable_eq] at takes
  rw [heading]
  rcases List.eq_nil_or_concat' method.parameters with none | ⟨front, last, all⟩
  · simp [none] at takes
  · rw [all, List.getLast?_concat, Option.any_some] at takes
    have isArray := (Bool.and_eq_true_iff.mp takes).2
    refine ⟨front, last, all, ?_, (spellable last (by simp [all])).flat.component_append isArray⟩
    rw [all, Stub.writtenTypes_concat, if_pos takes]

theorem isWritten_of_spellable (flat : '\n' ∉ indent.toList) (spellable : method.IsSpellable) :
    method.IsWritten indent method.heading (method.bodyLines indent) where
  text := method.toList_stub indent
  lines := by rw [toList_stub, lines_unlines (spellable.isUnbroken.isLine flat)]
  words := rfl
  exceptions := rfl
  counted := Stub.length_writtenTypes _ _
  declared index inside := by
    rw [Heading.declarations, List.getElem?_mapIdx, List.getElem?_eq_getElem inside,
      Option.map_some, String.append_assoc, String.append_assoc]
    rfl
  fixed := types_of_fixed
  variadic takes := types_of_takesVariable takes spellable.parameters
  empty := bodyLines_eq_nil
  array element rank returned := by
    have whole : (JavaType.array element rank).Flat := returned ▸ spellable.returnType.flat
    refine ⟨JavaType.brackets (rank - 1), ?_, ?_⟩
    · rw [bodyLines, returned, JavaType.defaultValue_array]
      simp only [Option.map_some, Option.toList_some, String.append_assoc]
    · rw [returned, ← whole.sourceName_array]
      simp only [String.append_assoc]

/-- Methods with one stub declare the same, and every stub is written line by line as its method
says. -/
theorem stub_unambiguous {indent : String} (flat : '\n' ∉ indent.toList) :
    (∀ left right : Method, left.IsSpellable → right.IsSpellable →
      left.stub indent = right.stub indent → left.DeclaresSame right) ∧
    ∀ method : Method, method.IsSpellable →
      ∃ heading body, heading.Separable ∧ method.IsWritten indent heading body :=
  ⟨fun _ _ => declaresSame_of_stub, fun method spellable =>
    ⟨method.heading, method.bodyLines indent, spellable.separable,
      isWritten_of_spellable flat spellable⟩⟩

/-- A method that any number of arrays can be passed to. -/
def entries : Method where
  name := "entries"
  declaringType := "kit.Table"
  returnType := .array (.reference "kit.Map$Key") 2
  parameters := [.primitive .int, .array (.reference "kit.Row") 2]
  exceptions := [.reference "kit.Broken"]
  modifiers := .ofList [.publicAccess, .abstractMember, .variableArity]

/-- The method as a bridge of another type, with its result in another spelling. -/
def bridgedEntries : Method where
  name := "entries"
  declaringType := "kit.View"
  returnType := .array (.reference "kit.Map.Key") 2
  parameters := [.primitive .int, .array (.reference "kit.Row") 2]
  exceptions := [.reference "kit.Broken"]
  modifiers := .ofList [.publicAccess, .variableArity, .bridgeMethod]

theorem stub_unambiguous_entries :
    entries.DeclaresSame bridgedEntries ∧
      (∃ heading body, heading.Separable ∧ entries.IsWritten "  " heading body) ∧
      entries.stub "  " =
        "public kit.Map.Key[][] entries(int p0, kit.Row[]... p1) throws kit.Broken \x7b\n" ++
          "  return new kit.Map.Key[0][];\n\x7d\n" := by
  have spellable : entries.IsSpellable :=
    ⟨by decide, by decide, by decide, by decide⟩
  have spellableToo : bridgedEntries.IsSpellable :=
    ⟨by decide, by decide, by decide, by decide⟩
  have flat : '\n' ∉ "  ".toList := by decide
  obtain ⟨told, written⟩ := stub_unambiguous flat
  have same : entries.stub "  " = bridgedEntries.stub "  " := by decide +kernel
  exact ⟨told entries bridgedEntries spellable spellableToo same, written entries spellable,
    by decide +kernel⟩

end Method

end Stubwright
