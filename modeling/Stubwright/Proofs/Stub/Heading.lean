import Stubwright.Proofs.Stub.SourceText
import Stubwright.Proofs.Stub.WrittenTypes

namespace Stubwright

open Text

structure Heading where
  /-- What stands in front of the parentheses. -/
  words : List String
  types : List String
  exceptions : List String
deriving DecidableEq, Repr

namespace Heading

/-- Parameters are named by their position. -/
def declarations (heading : Heading) : List String :=
  heading.types.mapIdx fun index type => type ++ " " ++ Stub.parameterName index

def thrown (heading : Heading) : String :=
  if heading.exceptions.isEmpty then "" else " throws " ++ ", ".intercalate heading.exceptions

def text (heading : Heading) : String :=
  " ".intercalate heading.words ++ "(" ++ ", ".intercalate heading.declarations ++ ")" ++
    heading.thrown ++ " \x7b"

/-- No word holds the character that ends it. -/
structure Separable (heading : Heading) : Prop where
  named : heading.words ≠ []
  words : ∀ word ∈ heading.words, ' ' ∉ word.toList ∧ '(' ∉ word.toList
  types : ∀ type ∈ heading.types, ',' ∉ type.toList ∧ ')' ∉ type.toList
  exceptions : ∀ type ∈ heading.exceptions, ',' ∉ type.toList ∧ '\x7b' ∉ type.toList

variable {heading left right : Heading}

theorem not_mem_parameterName {c : Char} (notP : c ≠ 'p') (notDigit : c.isDigit = false)
    (index : Nat) : c ∉ (Stub.parameterName index).toList := by
  have spelled : Stub.parameterName index = "p" ++ toString index := rfl
  intro member
  rw [spelled] at member
  have digit : c ∈ Nat.toDigits 10 index := by
    simpa [notP] using member
  have isDigit := Nat.isDigit_of_mem_toDigits (by decide) (by decide) digit
  simp [notDigit] at isDigit

theorem mem_declarations {declaration : String} :
    declaration ∈ heading.declarations ↔
      ∃ index, ∃ inside : index < heading.types.length,
        declaration = heading.types[index] ++ " " ++ Stub.parameterName index := by
  rw [declarations, List.mem_mapIdx]
  simp only [eq_comm]

theorem not_mem_declaration {c : Char} (apart : c ∉ [' ', 'p']) (notDigit : c.isDigit = false)
    (clean : ∀ type ∈ heading.types, c ∉ type.toList) :
    ∀ declaration ∈ heading.declarations, c ∉ declaration.toList := by
  intro declaration member
  obtain ⟨index, inside, rfl⟩ := mem_declarations.mp member
  simp only [List.mem_cons, List.not_mem_nil, or_false, not_or] at apart
  have named := not_mem_parameterName apart.2 notDigit index
  simp [clean _ (List.getElem_mem inside), named, apart.1]

theorem not_mem_thrown {c : Char} (apart : c ∉ " throws , ".toList)
    (clean : ∀ type ∈ heading.exceptions, c ∉ type.toList) : c ∉ heading.thrown.toList := by
  simp only [String.reduceToList, List.mem_cons, List.not_mem_nil, or_false, not_or] at apart
  have listed := not_mem_intercalate ", " (by simp [apart]) clean
  unfold thrown
  split
  · simp
  · rw [String.toList_append, List.mem_append, not_or]
    exact ⟨by simp [apart], listed⟩

structure Unbroken (heading : Heading) : Prop where
  words : ∀ word ∈ heading.words, '\n' ∉ word.toList
  types : ∀ type ∈ heading.types, '\n' ∉ type.toList
  exceptions : ∀ type ∈ heading.exceptions, '\n' ∉ type.toList

theorem Unbroken.isLine (unbroken : heading.Unbroken) : IsLine heading.text.toList := by
  have words := not_mem_intercalate " " (by decide) unbroken.words
  have declared := not_mem_intercalate ", " (by decide)
    (not_mem_declaration (by decide) (by decide) unbroken.types)
  have thrown := not_mem_thrown (by decide) unbroken.exceptions
  have ended : heading.text.toList =
      (" ".intercalate heading.words ++ "(" ++ ", ".intercalate heading.declarations ++ ")" ++
        heading.thrown ++ " ").toList ++ ['\x7b'] := by
    simp [text]
  rw [ended]
  refine isLine_concat ?_ (by decide) (by decide)
  simp only [String.toList_append, List.mem_append, not_or]
  exact ⟨⟨⟨⟨⟨words, by decide⟩, declared⟩, by decide⟩, thrown⟩, by decide⟩

theorem types_eq_of_declarations (same : left.declarations = right.declarations) :
    left.types = right.types := by
  have counted : left.types.length = right.types.length := by
    simpa [declarations] using congrArg List.length same
  refine List.ext_getElem counted fun index inside insideToo => ?_
  have spelled := congrArg (·[index]?) same
  simpa [declarations, inside, insideToo] using spelled

theorem declarations_inj (separable : left.Separable) (separableToo : right.Separable)
    (same : ", ".intercalate left.declarations = ", ".intercalate right.declarations) :
    left.declarations = right.declarations := by
  have filled {heading : Heading} (empty : ", ".intercalate heading.declarations = "") :
      heading.declarations = [] := by
    by_contra declared
    obtain ⟨first, others, all⟩ := List.exists_cons_of_ne_nil declared
    obtain ⟨index, inside, rfl⟩ : ∃ index, ∃ inside : index < heading.types.length,
        first = heading.types[index] ++ " " ++ Stub.parameterName index :=
      mem_declarations.mp (all ▸ List.mem_cons_self)
    rw [all, String.append_assoc, String.intercalate_cons_append] at empty
    simp at empty
  have clean {heading : Heading} (separable : heading.Separable) :=
    not_mem_declaration (by decide) (by decide) fun type member => (separable.types type member).1
  -- Joined to nothing are no declarations alone, since none of them is empty.
  by_cases none : left.declarations = []
  · rw [none] at same ⊢
    exact (filled same.symm).symm
  · have declared : right.declarations ≠ [] := by
      intro noneToo
      rw [noneToo] at same
      exact none (filled same)
    exact intercalate_inj rfl (by decide) (clean separable) (clean separableToo) none declared same

theorem thrown_inj (separable : left.Separable) (separableToo : right.Separable)
    (same : left.thrown = right.thrown) : left.exceptions = right.exceptions := by
  unfold thrown at same
  by_cases none : left.exceptions = []
  · by_cases noneToo : right.exceptions = []
    · rw [none, noneToo]
    · simp [none, noneToo] at same
  · by_cases noneToo : right.exceptions = []
    · simp [none, noneToo] at same
    · rw [if_neg (by simpa using none), if_neg (by simpa using noneToo),
        String.append_right_inj] at same
      exact intercalate_inj rfl (by decide)
        (fun type member => (separable.exceptions type member).1)
        (fun type member => (separableToo.exceptions type member).1) none noneToo same

theorem words_inj (separable : left.Separable) (separableToo : right.Separable)
    (same : " ".intercalate left.words = " ".intercalate right.words) :
    left.words = right.words := by
  have texts := congrArg (cut ' ' ∘ String.toList) same
  have space : " ".toList = [' '] := rfl
  simp only [Function.comp_apply, String.toList_intercalate, space, ← join_eq_intercalate] at texts
  rw [cut_join (by simpa using fun word member => (separable.words word member).1)
      (by simpa using separable.named),
    cut_join (by simpa using fun word member => (separableToo.words word member).1)
      (by simpa using separableToo.named)] at texts
  exact (List.map_inj_right fun _ _ => String.toList_inj.mp).mp texts

theorem toList_text (heading : Heading) :
    heading.text.toList = (" ".intercalate heading.words).toList ++
      '(' :: ((", ".intercalate heading.declarations).toList ++
        ')' :: ((heading.thrown.toList ++ [' ']) ++ ['\x7b'])) := by
  simp [text]

/-- A heading ends at its brace, and what stands before it is the text of no other heading. -/
theorem eq_of_text_append (separable : left.Separable) (separableToo : right.Separable)
    {more other : List Char} (same : left.text.toList ++ more = right.text.toList ++ other) :
    left = right ∧ more = other := by
  have opened {heading : Heading} (separable : heading.Separable) :=
    not_mem_intercalate " " (by decide) fun word member => (separable.words word member).2
  have closed {heading : Heading} (separable : heading.Separable) :=
    not_mem_intercalate ", " (by decide) <|
      not_mem_declaration (by decide) (by decide) fun type member => (separable.types type member).2
  have ended {heading : Heading} (separable : heading.Separable) :
      '\x7b' ∉ heading.thrown.toList ++ [' '] := by
    simp [not_mem_thrown (by decide) fun type member => (separable.exceptions type member).2]
  rw [toList_text, toList_text] at same
  simp only [List.append_assoc, List.cons_append] at same
  -- The three parts end at the first opening and closing parenthesis and at the first brace.
  obtain ⟨words, same⟩ := split_inj (opened separable) (opened separableToo) same
  obtain ⟨declared, same⟩ := split_inj (closed separable) (closed separableToo) same
  obtain ⟨thrown, same⟩ := split_inj (ended separable) (ended separableToo) (by simpa using same)
  refine ⟨?_, same⟩
  have types := types_eq_of_declarations
    (declarations_inj separable separableToo (String.toList_inj.mp declared))
  have exceptions := thrown_inj separable separableToo
    (String.toList_inj.mp (List.append_cancel_right thrown))
  have words := words_inj separable separableToo (String.toList_inj.mp words)
  cases left
  cases right
  cases words
  cases types
  cases exceptions
  rfl

end Heading

/-! The headings of stubs. -/

def Modifiers.sourceKeywords (flags : Modifiers) : List String :=
  (Modifier.inSource.filter flags.has).map Modifier.keyword

theorem Modifiers.sourceText_eq (flags : Modifiers) :
    flags.sourceText = " ".intercalate flags.sourceKeywords := rfl

theorem Modifiers.mem_sourceKeywords {flags : Modifiers} {word : String} :
    word ∈ flags.sourceKeywords ↔
      ∃ modifier ∈ Modifier.inSource, flags.has modifier = true ∧ modifier.keyword = word := by
  simp [sourceKeywords, and_assoc]

theorem Modifiers.not_mem_sourceKeywords {flags : Modifiers} {c : Char}
    (apart : ∀ modifier ∈ Modifier.inSource, c ∉ modifier.keyword.toList) :
    ∀ word ∈ flags.sourceKeywords, c ∉ word.toList := by
  intro word member
  obtain ⟨modifier, written, -, rfl⟩ := mem_sourceKeywords.mp member
  exact apart modifier written

theorem Modifiers.sourceText_isEmpty (flags : Modifiers) :
    flags.sourceText.isEmpty = flags.sourceKeywords.isEmpty := by
  rw [sourceText_eq]
  cases all : flags.sourceKeywords with
  | nil => rfl
  | cons first others =>
      have listed : first ∈ flags.sourceKeywords := all ▸ List.mem_cons_self
      obtain ⟨modifier, -, rfl⟩ := List.mem_map.mp listed
      have filled : modifier.keyword ≠ "" := by cases modifier <;> decide
      cases others <;> simp [filled]

namespace Stub

/-- What stands in front of the modifiers' keywords takes its place among the words. -/
theorem withModifiers_eq (flags : Modifiers) {words : List String} (named : words ≠ [])
    (rest : String) :
    withModifiers flags (" ".intercalate words ++ rest) =
      " ".intercalate (flags.sourceKeywords ++ words) ++ rest := by
  rw [withModifiers, flags.sourceText_isEmpty, flags.sourceText_eq]
  by_cases none : flags.sourceKeywords = []
  · simp [none]
  · rw [if_neg (by simpa using none), String.intercalate_append_of_ne_nil none named]
    simp only [String.append_assoc]

theorem heading_eq (flags : Modifiers) (words : List String) (named : words ≠ [])
    (isVariadic : Bool) (parameters exceptions : List JavaType) :
    withModifiers flags
        (" ".intercalate words ++ signatureText isVariadic parameters exceptions) ++ " \x7b" =
      (Heading.mk (flags.sourceKeywords ++ words) (writtenTypes isVariadic parameters)
        (exceptions.map JavaType.sourceName)).text := by
  rw [withModifiers_eq flags named, signatureText, parameterTexts_eq, Heading.text, Heading.thrown,
    Heading.declarations, throwsText]
  simp only [Nat.zero_add, List.isEmpty_map, String.append_assoc]

/-- Names without line feeds make a heading without one. -/
theorem unbroken_heading {flags : Modifiers} {words : List String} {isVariadic : Bool}
    {parameters exceptions : List JavaType} (named : ∀ word ∈ words, '\n' ∉ word.toList)
    (passed : ∀ type ∈ parameters, '\n' ∉ type.binaryName.toList)
    (raised : ∀ type ∈ exceptions, '\n' ∉ type.binaryName.toList) :
    (Heading.mk (flags.sourceKeywords ++ words) (writtenTypes isVariadic parameters)
      (exceptions.map JavaType.sourceName)).Unbroken where
  words := by
    intro word member
    rcases List.mem_append.mp member with keyword | later
    · exact Modifiers.not_mem_sourceKeywords (by decide) word keyword
    · exact named word later
  types := not_mem_writtenTypes (by decide) fun type listed =>
    JavaType.newline_not_mem_sourceName (passed type listed)
  exceptions := by
    intro written member
    obtain ⟨type, listed, rfl⟩ := List.mem_map.mp member
    exact JavaType.newline_not_mem_sourceName (raised type listed)

end Stub

namespace Method

variable {method : Method}

def heading (method : Method) : Heading where
  words := method.stubModifiers.sourceKeywords ++ [method.returnType.sourceName, method.name]
  types := Stub.writtenTypes method.isVariadic method.parameters
  exceptions := method.exceptions.map JavaType.sourceName

/-- The statement of a stub, none for a method without a result. -/
def bodyLines (indent : String) (method : Method) : List (List Char) :=
  (method.returnType.defaultValue.map fun value =>
    (indent ++ ("return " ++ value ++ ";")).toList).toList

theorem mem_bodyLines {indent : String} {line : List Char} :
    line ∈ method.bodyLines indent ↔
      ∃ value ∈ method.returnType.defaultValue,
        line = (indent ++ ("return " ++ value ++ ";")).toList := by
  simp only [bodyLines, Option.mem_toList, Option.mem_def, Option.map_eq_some_iff, @eq_comm _ line]

theorem toList_stub (indent : String) (method : Method) :
    (method.stub indent).toList =
      unlines (method.heading.text.toList :: (method.bodyLines indent ++ [['\x7d']])) := by
  have headed := Stub.heading_eq method.stubModifiers [method.returnType.sourceName, method.name]
    (List.cons_ne_nil _ _) method.isVariadic method.parameters method.exceptions
  have spelled : " ".intercalate [method.returnType.sourceName, method.name] =
      method.returnType.sourceName ++ " " ++ method.name := by simp
  rw [spelled] at headed
  have filled : ∀ written ∈ method.returnType.defaultValue.map ("return " ++ · ++ ";"),
      written ≠ "" := by
    intro written member
    obtain ⟨value, -, rfl⟩ := Option.map_eq_some_iff.mp member
    simp
  rw [stub, Stub.toList_block filled, Stub.blockLines, headed, Option.map_map]
  rfl

structure IsUnbroken (method : Method) : Prop where
  name : '\n' ∉ method.name.toList
  returnType : '\n' ∉ method.returnType.binaryName.toList
  parameters : ∀ type ∈ method.parameters, '\n' ∉ type.binaryName.toList
  exceptions : ∀ type ∈ method.exceptions, '\n' ∉ type.binaryName.toList

instance : DecidablePred IsUnbroken := fun method =>
  decidable_of_iff ('\n' ∉ method.name.toList ∧ '\n' ∉ method.returnType.binaryName.toList ∧
      (∀ type ∈ method.parameters, '\n' ∉ type.binaryName.toList) ∧
      ∀ type ∈ method.exceptions, '\n' ∉ type.binaryName.toList)
    ⟨fun ⟨name, returned, passed, raised⟩ => ⟨name, returned, passed, raised⟩,
      fun unbroken =>
        ⟨unbroken.name, unbroken.returnType, unbroken.parameters, unbroken.exceptions⟩⟩

theorem IsUnbroken.heading (unbroken : method.IsUnbroken) : method.heading.Unbroken := by
  refine Stub.unbroken_heading ?_ unbroken.parameters unbroken.exceptions
  intro word named
  rcases List.mem_pair.mp named with rfl | rfl
  · exact JavaType.newline_not_mem_sourceName unbroken.returnType
  · exact unbroken.name

/-- With no line feed in the indentation either, the stub is made of these lines and no others. -/
theorem IsUnbroken.isLine (unbroken : method.IsUnbroken) {indent : String}
    (flat : '\n' ∉ indent.toList) :
    ∀ line ∈ method.heading.text.toList :: (method.bodyLines indent ++ [['\x7d']]),
      IsLine line := by
  intro line member
  rcases List.mem_cons.mp member with rfl | later
  · exact unbroken.heading.isLine
  · rcases List.mem_append.mp later with inBody | closing
    · obtain ⟨value, found, rfl⟩ := mem_bodyLines.mp inBody
      have clean := JavaType.newline_not_mem_defaultValue unbroken.returnType value found
      have ended : (indent ++ ("return " ++ value ++ ";")).toList =
          (indent ++ ("return " ++ value)).toList ++ [';'] := by simp
      rw [ended]
      exact isLine_concat (by simp [flat, clean]) (by decide) (by decide)
    · rw [List.mem_singleton.mp closing]
      exact isLine_singleton (by decide) (by decide)

end Method

namespace Constructor

variable {indent className : String} {constructor : Constructor}

def heading (className : String) (constructor : Constructor) : Heading where
  words := (constructor.modifiers.keep .onConstructors).sourceKeywords ++ [className]
  types := Stub.writtenTypes constructor.isVariadic constructor.parameters
  exceptions := constructor.exceptions.map JavaType.sourceName

def superCall (constructor : Constructor) : String :=
  "super(" ++ ", ".intercalate ((List.range constructor.arity).map Stub.parameterName) ++ ");"

theorem toList_stub (indent className : String) (constructor : Constructor) :
    (constructor.stub indent className).toList =
      unlines [(constructor.heading className).text.toList,
        (indent ++ constructor.superCall).toList, ['\x7d']] := by
  have headed := Stub.heading_eq (constructor.modifiers.keep .onConstructors) [className]
    (List.cons_ne_nil _ _) constructor.isVariadic constructor.parameters constructor.exceptions
  rw [String.intercalate_singleton] at headed
  have filled : ∀ written ∈ some constructor.superCall, written ≠ "" := by
    simp [superCall]
  unfold superCall at filled
  rw [stub, Stub.toList_block filled, Stub.blockLines, headed]
  rfl

structure IsUnbroken (constructor : Constructor) : Prop where
  parameters : ∀ type ∈ constructor.parameters, '\n' ∉ type.binaryName.toList
  exceptions : ∀ type ∈ constructor.exceptions, '\n' ∉ type.binaryName.toList

instance : DecidablePred IsUnbroken := fun constructor =>
  decidable_of_iff ((∀ type ∈ constructor.parameters, '\n' ∉ type.binaryName.toList) ∧
      ∀ type ∈ constructor.exceptions, '\n' ∉ type.binaryName.toList)
    ⟨fun ⟨passed, raised⟩ => ⟨passed, raised⟩,
      fun unbroken => ⟨unbroken.parameters, unbroken.exceptions⟩⟩

theorem IsUnbroken.heading (unbroken : constructor.IsUnbroken) (named : '\n' ∉ className.toList) :
    (constructor.heading className).Unbroken :=
  Stub.unbroken_heading (by simpa using named) unbroken.parameters unbroken.exceptions

theorem isLine_superCall (flat : '\n' ∉ indent.toList) :
    IsLine (indent ++ constructor.superCall).toList := by
  have passed : ∀ name ∈ (List.range constructor.arity).map Stub.parameterName,
      '\n' ∉ name.toList := by
    intro name listed
    obtain ⟨index, -, rfl⟩ := List.mem_map.mp listed
    exact Heading.not_mem_parameterName (by decide) (by decide) index
  have arguments := not_mem_intercalate ", " (by decide) passed
  have ended : (indent ++ constructor.superCall).toList =
      (indent ++ "super(" ++ ", ".intercalate ((List.range constructor.arity).map
        Stub.parameterName) ++ ")").toList ++ [';'] := by
    simp [superCall]
  rw [ended]
  refine isLine_concat ?_ (by decide) (by decide)
  simp only [String.toList_append, List.mem_append, not_or]
  exact ⟨⟨⟨flat, by decide⟩, arguments⟩, by decide⟩

theorem IsUnbroken.isLine (unbroken : constructor.IsUnbroken) (named : '\n' ∉ className.toList)
    (flat : '\n' ∉ indent.toList) :
    ∀ line ∈ [(constructor.heading className).text.toList,
      (indent ++ constructor.superCall).toList, ['\x7d']], IsLine line := by
  intro line member
  simp only [List.mem_cons, List.not_mem_nil, or_false] at member
  rcases member with rfl | rfl | rfl
  · exact (unbroken.heading named).isLine
  · exact isLine_superCall flat
  · exact isLine_singleton (by decide) (by decide)

end Constructor

end Stubwright
