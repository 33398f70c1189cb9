import Stubwright.JavaType
import Stubwright.Proofs.Text.Trimming

namespace Stubwright

open Text

namespace JavaType

theorem isBlank_of_isNameChar {c : Char} (named : isNameChar c = true) : isBlank c = false := by
  simp only [isNameChar, Bool.or_eq_true, beq_iff_eq] at named
  rcases named with ((letter | rfl) | rfl) | rfl
  · exact isBlank_of_isAlphanumeric letter
  all_goals decide

theorem not_isNameChar_bracket : isNameChar ']' = false := by
  decide +kernel

def IsBase (base : List Char) : Prop :=
  base ≠ [] ∧ ∀ c ∈ base, isNameChar c = true

theorem IsBase.visible {base : List Char} (based : IsBase base) :
    ∀ c ∈ base, isBlank c = false := fun c member =>
  isBlank_of_isNameChar (based.2 c member)

/-- Texts that start with `base` and go on with groups of blanks and brackets, by their number. -/
inductive Suffixed (base : List Char) : Nat → List Char → Prop where
  | base : Suffixed base 0 base
  | array {rank : Nat} {text gap : List Char} (inner : Suffixed base rank text)
      (blank : ∀ c ∈ gap, isBlank c = true) :
      Suffixed base (rank + 1) (text ++ gap ++ ['[', ']'])

inductive NamedBy : String → JavaType → Prop where
  | void : NamedBy "void" void
  | primitive (kind : Primitive) : NamedBy kind.name (primitive kind)
  | reference {name : String} (notVoid : name ≠ "void")
      (notPrimitive : ∀ kind, name ≠ Primitive.name kind) : NamedBy name (reference name)

structure Spelling (text base : List Char) (rank : Nat) (element : JavaType) : Prop where
  isBase : IsBase base
  suffixed : Suffixed base rank (trim text)
  named : NamedBy (String.ofList base) element
  noVoidArray : String.ofList base = "void" → rank = 0

theorem stripSuffixes_sound {text base : List Char} {rank : Nat}
    (stripped : stripSuffixes text = (base, rank)) : Suffixed base.reverse rank text.reverse := by
  fun_induction stripSuffixes text generalizing base rank with
  | case1 rest base' rank' inner ih =>
      cases stripped
      have split : rest.reverse =
          (rest.dropWhile isBlank).reverse ++ (rest.takeWhile isBlank).reverse := by
        rw [← List.reverse_append, List.takeWhile_append_dropWhile]
      have blank : ∀ c ∈ (rest.takeWhile isBlank).reverse, isBlank c = true := fun c member =>
        List.mem_takeWhile_imp (List.mem_reverse.mp member)
      rw [List.reverse_cons, List.reverse_cons, List.append_assoc, split]
      exact (ih inner).array blank
  | case2 text other =>
      cases stripped
      exact .base

theorem Suffixed.ends_visible {base text : List Char} {rank : Nat}
    (suffixed : Suffixed base rank text) (based : IsBase base) :
    text.reverse.dropWhile isBlank = text.reverse := by
  cases suffixed with
  | base =>
      exact dropWhile_visible fun c member => based.visible c (List.mem_reverse.mp member)
  | array inner blank =>
      have visible : isBlank ']' = false := by decide
      simp [visible]

theorem stripSuffixes_base {base : List Char} (based : IsBase base) :
    stripSuffixes base.reverse = (base.reverse, 0) := by
  have noBracket : ']' ∉ base.reverse := by
    intro member
    have named := based.2 ']' (List.mem_reverse.mp member)
    rw [not_isNameChar_bracket] at named
    cases named
  rw [stripSuffixes]
  intro rest suffix
  rw [suffix] at noBracket
  exact noBracket List.mem_cons_self

theorem stripSuffixes_complete {base text : List Char} {rank : Nat} (based : IsBase base)
    (suffixed : Suffixed base rank text) : stripSuffixes text.reverse = (base.reverse, rank) := by
  induction suffixed with
  | base => exact stripSuffixes_base based
  | @array rank text gap inner blank ih =>
      have skipped : (gap.reverse ++ text.reverse).dropWhile isBlank = text.reverse := by
        rw [List.dropWhile_append_of_pos fun c member => blank c (List.mem_reverse.mp member),
          inner.ends_visible based]
      have last : (text ++ gap ++ ['[', ']']).reverse =
          ']' :: '[' :: (gap.reverse ++ text.reverse) := by simp
      rw [last, stripSuffixes, skipped, ih]

theorem toList_brackets_zero : (brackets 0).toList = [] := rfl

theorem toList_brackets_succ (rank : Nat) :
    (brackets (rank + 1)).toList = (brackets rank).toList ++ ['[', ']'] := by
  simp [brackets, List.replicate_succ']

theorem Suffixed.filter_visible {base text : List Char} {rank : Nat}
    (suffixed : Suffixed base rank text) (based : IsBase base) :
    text.filter (!isBlank ·) = base ++ (brackets rank).toList := by
  induction suffixed with
  | base =>
      have all : base.filter (!isBlank ·) = base := by
        apply List.filter_eq_self.mpr
        intro c member
        rw [based.visible c member]
        rfl
      rw [all, toList_brackets_zero, List.append_nil]
  | @array rank text gap inner blank ih =>
      have none : gap.filter (!isBlank ·) = [] := by
        apply List.filter_eq_nil_iff.mpr
        intro c member
        simp [blank c member]
      have pair : ['[', ']'].filter (!isBlank ·) = ['[', ']'] := by decide
      rw [List.filter_append, List.filter_append, ih, none, pair, toList_brackets_succ,
        List.append_nil, List.append_assoc]

theorem suffixed_brackets (base : List Char) (rank : Nat) :
    Suffixed base rank (base ++ (brackets rank).toList) := by
  induction rank with
  | zero =>
      rw [toList_brackets_zero, List.append_nil]
      exact .base
  | succ rank ih =>
      -- The written groups have empty gaps.
      rw [toList_brackets_succ, ← List.append_assoc, ← List.append_nil (base ++ _)]
      exact ih.array nofun

theorem namedBy_ofBaseName (name : String) : NamedBy name (ofBaseName name) := by
  unfold ofBaseName
  split
  · rename_i isVoid
    rw [isVoid]
    exact .void
  · rename_i notVoid
    split
    · rename_i kind found
      rw [← Primitive.name_of_ofName? found]
      exact .primitive kind
    · rename_i unknown
      refine .reference notVoid ?_
      rintro kind rfl
      rw [Primitive.ofName?_name] at unknown
      cases unknown

theorem NamedBy.unique {name : String} {element : JavaType} (named : NamedBy name element) :
    element = ofBaseName name := by
  cases named with
  | void => rfl
  | primitive kind => cases kind <;> rfl
  | reference notVoid notPrimitive =>
      rw [ofBaseName, if_neg notVoid]
      cases found : Primitive.ofName? name with
      | none => rfl
      | some kind => exact absurd (Primitive.name_of_ofName? found).symm (notPrimitive kind)

theorem NamedBy.binaryName_eq {name : String} {element : JavaType} (named : NamedBy name element) :
    element.binaryName = name := by
  cases named <;> rfl

theorem NamedBy.isArray_eq_false {name : String} {element : JavaType}
    (named : NamedBy name element) : element.isArray = false := by
  cases named <;> rfl

theorem NamedBy.isVoid_iff {name : String} {element : JavaType} (named : NamedBy name element) :
    element.isVoid = true ↔ name = "void" := by
  cases named with
  | void => simp [isVoid]
  | primitive kind => cases kind <;> decide
  | reference notVoid notPrimitive => simp [isVoid, notVoid]

theorem binaryName_arrayOf (type : JavaType) (rank : Nat) :
    (type.arrayOf rank).binaryName = type.binaryName ++ brackets rank := by
  cases rank with
  | zero => rw [arrayOf_zero, brackets_zero, String.append_empty]
  | succ rank =>
      cases type with
      | array element inner =>
          rw [arrayOf_array, binaryName, binaryName, brackets_add, String.append_assoc]
      | void | primitive _ | reference _ => rfl

theorem spelling_of_parse {text : String} {type : JavaType} (read : parse text = .ok type) :
    ∃ base rank element, Spelling text.toList base rank element ∧ type = element.arrayOf rank := by
  rw [parse] at read
  cases stripped : stripSuffixes (trim text.toList).reverse with
  | mk reversed rank =>
      simp only [stripped] at read
      split at read
      · cases read
      · rename_i wellNamed
        split at read
        · cases read
        · rename_i notVoidArray
          cases read
          have based : IsBase reversed.reverse := by simpa [IsBase] using wellNamed
          have suffixed := stripSuffixes_sound stripped
          rw [List.reverse_reverse] at suffixed
          have named := namedBy_ofBaseName (String.ofList reversed.reverse)
          refine ⟨reversed.reverse, rank, _, ⟨based, suffixed, named, ?_⟩, rfl⟩
          rw [← named.isVoid_iff]
          simpa using notVoidArray

theorem parse_of_spelling {text : String} {base : List Char} {rank : Nat} {element : JavaType}
    (spelling : Spelling text.toList base rank element) :
    parse text = .ok (element.arrayOf rank) := by
  obtain ⟨based, suffixed, named, noVoidArray⟩ := spelling
  have nonempty : base.isEmpty = false := by simpa using based.1
  have wellNamed : base.all isNameChar = true := List.all_eq_true.mpr based.2
  have allowed : (element.isVoid && rank != 0) = false := by
    rw [← named.isVoid_iff] at noVoidArray
    simpa using noVoidArray
  rw [parse, stripSuffixes_complete based suffixed]
  simp only [List.reverse_reverse, nonempty, wellNamed, ← named.unique, allowed]
  rfl

theorem eq_of_parse_error {text : String} {fault : MalformedType}
    (refused : parse text = .error fault) : fault = ⟨text⟩ := by
  simp only [parse] at refused
  split at refused
  · cases refused
    rfl
  · split at refused
    · cases refused
      rfl
    · cases refused

theorem parse_eq_ok_iff {text : String} {type : JavaType} :
    parse text = .ok type ↔
      ∃ base rank element,
        Spelling text.toList base rank element ∧ type = element.arrayOf rank := by
  constructor
  · exact spelling_of_parse
  · rintro ⟨base, rank, element, spelling, rfl⟩
    exact parse_of_spelling spelling

theorem binaryName_of_parse {text : String} {type : JavaType} (read : parse text = .ok type) :
    type.binaryName = String.ofList (text.toList.filter (!isBlank ·)) := by
  obtain ⟨base, rank, element, spelling, rfl⟩ := spelling_of_parse read
  rw [← filter_trim, spelling.suffixed.filter_visible spelling.isBase,
    binaryName_arrayOf, spelling.named.binaryName_eq, String.ofList_append, String.ofList_toList]

def IsSpelled (type : JavaType) : Prop :=
  ∃ text, parse text = .ok type

theorem parse_binaryName {type : JavaType} (spelled : type.IsSpelled) :
    parse type.binaryName = .ok type := by
  obtain ⟨text, read⟩ := spelled
  have written := binaryName_of_parse read
  obtain ⟨base, rank, element, spelling, rfl⟩ := spelling_of_parse read
  have visible : ∀ c ∈ (element.arrayOf rank).binaryName.toList, isBlank c = false := by
    intro c member
    rw [written, String.toList_ofList, List.mem_filter] at member
    simpa using member.2
  refine parse_of_spelling ⟨spelling.isBase, ?_, spelling.named, spelling.noVoidArray⟩
  rw [trim_visible visible, binaryName_arrayOf, spelling.named.binaryName_eq, String.toList_append,
    String.toList_ofList]
  exact suffixed_brackets base rank

theorem isSpelled_void : IsSpelled void := by
  have based : IsBase ['v', 'o', 'i', 'd'] := by
    refine ⟨by decide, ?_⟩
    simp only [List.forall_mem_cons]
    exact ⟨rfl, rfl, rfl, rfl, nofun⟩
  refine ⟨String.ofList ['v', 'o', 'i', 'd'], parse_of_spelling ⟨based, ?_, .void, fun _ => rfl⟩⟩
  rw [String.toList_ofList, trim_visible based.visible]
  exact .base

/-- Spellings are read exactly, and written back without their blanks. -/
theorem parse_exact (text : String) :
    (∀ type, parse text = .ok type ↔
      ∃ base rank element,
        Spelling text.toList base rank element ∧ type = element.arrayOf rank) ∧
    (parse text = .error ⟨text⟩ ↔
      ¬ ∃ base rank element, Spelling text.toList base rank element) ∧
    ∀ type, parse text = .ok type →
      type.binaryName = String.ofList (text.toList.filter (!isBlank ·)) ∧
      parse type.binaryName = .ok type ∧
      ∀ other, other.IsSpelled → other.binaryName = type.binaryName → other = type := by
  refine ⟨fun _ => parse_eq_ok_iff, ?_, fun type read => ?_⟩
  · constructor
    · rintro refused ⟨base, rank, element, spelling⟩
      rw [parse_of_spelling spelling] at refused
      cases refused
    · intro unspelled
      cases outcome : parse text with
      | error fault => rw [eq_of_parse_error outcome]
      | ok type =>
          obtain ⟨base, rank, element, spelling, -⟩ := spelling_of_parse outcome
          exact absurd ⟨base, rank, element, spelling⟩ unspelled
  · have back := parse_binaryName ⟨text, read⟩
    refine ⟨binaryName_of_parse read, back, fun other spelled same => ?_⟩
    have otherBack := parse_binaryName spelled
    rw [same, back] at otherBack
    cases otherBack
    rfl

/-- Blanks around a spelling and before its brackets. -/
theorem parse_exact_padded :
    parse " int [] []" = .ok (array (primitive .int) 2) ∧
      parse "int[][]" = .ok (array (primitive .int) 2) := by
  obtain ⟨accepts, -, back⟩ := parse_exact " int [] []"
  have based : IsBase ['i', 'n', 't'] := by
    refine ⟨by decide, ?_⟩
    simp only [List.forall_mem_cons]
    exact ⟨rfl, rfl, rfl, nofun⟩
  have trimmed : trim " int [] []".toList =
      ['i', 'n', 't'] ++ [' '] ++ ['[', ']'] ++ [' '] ++ ['[', ']'] := by decide
  have space : ∀ c ∈ [' '], isBlank c = true := by
    rw [List.forall_mem_singleton]
    decide
  have suffixed : Suffixed ['i', 'n', 't'] 2 (trim " int [] []".toList) := by
    rw [trimmed]
    exact (Suffixed.base.array space).array space
  have read : parse " int [] []" = .ok (array (primitive .int) 2) :=
    (accepts _).mpr ⟨_, 2, _, ⟨based, suffixed, .primitive .int, by decide⟩, rfl⟩
  obtain ⟨-, again, -⟩ := back _ read
  exact ⟨read, again⟩

end JavaType

end Stubwright
