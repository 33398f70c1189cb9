import Stubwright.ClassFile.Descriptor
import Stubwright.Proofs.Text.Pieces

/-!
The texts that descriptors are. `Spells` is their grammar for a single type; the readers accept
exactly what it derives and `methodDescriptor` writes exactly one such text for each type, up to the
periods that may stand for the slashes of a name. The types a descriptor can spell are those without
nested arrays whose names a class file can hold: a semicolon would end a name early.
-/
namespace Stubwright

open Text

namespace JavaType

def IsElement : JavaType → Prop
  | primitive _ => True
  | reference name => ';' ∉ name.toList ∧ '/' ∉ name.toList
  | void | array _ _ => False

instance : DecidablePred IsElement
  | primitive _ => inferInstanceAs (Decidable True)
  | reference name => inferInstanceAs (Decidable (';' ∉ name.toList ∧ '/' ∉ name.toList))
  | void | array _ _ => inferInstanceAs (Decidable False)

def IsFieldType : JavaType → Prop
  | array element rank => 0 < rank ∧ element.IsElement
  | element => element.IsElement

instance : DecidablePred IsFieldType
  | array element rank => inferInstanceAs (Decidable (0 < rank ∧ element.IsElement))
  | void => inferInstanceAs (Decidable (IsElement void))
  | primitive kind => inferInstanceAs (Decidable (IsElement (primitive kind)))
  | reference name => inferInstanceAs (Decidable (IsElement (reference name)))

def IsReturnType (type : JavaType) : Prop :=
  type = void ∨ type.IsFieldType

instance : DecidablePred IsReturnType := fun type =>
  inferInstanceAs (Decidable (type = void ∨ type.IsFieldType))

theorem IsElement.isArray_eq_false {element : JavaType} (single : element.IsElement) :
    element.isArray = false := by
  cases element with
  | array _ _ => exact single.elim
  | void | primitive _ | reference _ => rfl

theorem IsFieldType.arrayOf_one {type : JavaType} (spelled : type.IsFieldType) :
    (type.arrayOf 1).IsFieldType := by
  cases type with
  | void => exact spelled.elim
  | primitive _ | reference _ => exact ⟨Nat.one_pos, spelled⟩
  | array element rank => exact ⟨Nat.succ_pos rank, spelled.2⟩

end JavaType

namespace ClassFile

theorem descriptor_arrayOf_one {type : JavaType} (spelled : type.IsFieldType) :
    descriptor (type.arrayOf 1) = '[' :: descriptor type := by
  cases type with
  | void => exact spelled.elim
  | primitive _ | reference _ => rfl
  | array element rank => rfl

/-- The texts that stand for a type. -/
inductive Spells : List Char → JavaType → Prop where
  | primitive (kind : Primitive) : Spells [tagOf kind] (.primitive kind)
  | reference {name : List Char} (unended : ';' ∉ name) :
      Spells ('L' :: name ++ [';']) (.reference (binaryNameOf name))
  | array {front : List Char} {element : JavaType} (inner : Spells front element) :
      Spells ('[' :: front) (element.arrayOf 1)

theorem tagOf_of_primitiveOfTag? {tag : Char} {kind : Primitive}
    (found : primitiveOfTag? tag = some kind) : tag = tagOf kind := by
  unfold primitiveOfTag? at found
  split at found <;> cases found <;> rfl

theorem tagOf_ne (kind : Primitive) :
    tagOf kind ≠ '[' ∧ tagOf kind ≠ 'L' ∧ tagOf kind ≠ ')' ∧ tagOf kind ≠ 'V' ∧
      tagOf kind ≠ '.' ∧ tagOf kind ≠ '/' := by
  cases kind <;> decide

theorem typeAt_of_spells {front : List Char} {type : JavaType} (spelled : Spells front type)
    (rest : List Char) : typeAt (front ++ rest) = .ok (type, rest) := by
  induction spelled with
  | primitive kind =>
      obtain ⟨notArray, notName, -⟩ := tagOf_ne kind
      simp [typeAt, notArray, notName, primitiveOfTag?_tagOf]
  | @reference name unended =>
      obtain ⟨taken, dropped⟩ := takeWhile_of_not_mem unended rest
      simp only [List.cons_append, List.append_assoc, List.nil_append, typeAt]
      rw [if_neg (by decide), if_pos trivial, dropped, taken]
  | array inner ih =>
      rw [List.cons_append, typeAt, if_pos rfl, ih]

theorem spells_of_typeAt {text after : List Char} {type : JavaType}
    (found : typeAt text = .ok (type, after)) :
    ∃ front, text = front ++ after ∧ Spells front type := by
  induction text generalizing type after with
  | nil => simp [typeAt] at found
  | cons tag rest ih =>
      simp only [typeAt] at found
      split at found
      · rename_i bracket
        cases inner : typeAt rest with
        | error fault => simp [inner] at found
        | ok result =>
            obtain ⟨element, remaining⟩ := result
            simp only [inner, Except.ok.injEq, Prod.mk.injEq] at found
            obtain ⟨rfl, rfl⟩ := found
            obtain ⟨front, rfl, spelled⟩ := ih inner
            exact ⟨'[' :: front, by simp [bracket], spelled.array⟩
      · split at found
        · rename_i marked
          split at found
          · cases found
          · rename_i ending tail dropped
            simp only [Except.ok.injEq, Prod.mk.injEq] at found
            obtain ⟨rfl, rfl⟩ := found
            have whole : rest.takeWhile (· ≠ ';') ++ rest.dropWhile (· ≠ ';') = rest :=
              List.takeWhile_append_dropWhile
            have unended : ';' ∉ rest.takeWhile (· ≠ ';') := by
              intro member
              simpa using List.mem_takeWhile_imp member
            refine ⟨_, ?_, .reference unended⟩
            rw [dropped, eq_of_dropWhile_ne dropped] at whole
            simp only [marked, List.cons_append, List.append_assoc, List.nil_append, whole]
        · cases kindFound : primitiveOfTag? tag with
          | none => simp [kindFound] at found
          | some kind =>
              simp only [kindFound, Except.ok.injEq, Prod.mk.injEq] at found
              obtain ⟨rfl, rfl⟩ := found
              exact ⟨[tag], rfl, tagOf_of_primitiveOfTag? kindFound ▸ .primitive kind⟩

theorem typeAt_eq_ok_iff {text after : List Char} {type : JavaType} :
    typeAt text = .ok (type, after) ↔ ∃ front, text = front ++ after ∧ Spells front type := by
  constructor
  · exact spells_of_typeAt
  · rintro ⟨front, rfl, spelled⟩
    exact typeAt_of_spells spelled after

theorem isFieldType_of_spells {front : List Char} {type : JavaType} (spelled : Spells front type) :
    type.IsFieldType ∧ swap '.' '/' front = descriptor type := by
  induction spelled with
  | primitive kind =>
      obtain ⟨_, _, _, _, period, _⟩ := tagOf_ne kind
      refine ⟨trivial, ?_⟩
      simp [swap, descriptor, period]
  | @reference name unended =>
      have noEnd : ';' ∉ swap '/' '.' name := by
        rwa [mem_swap_of_ne (by decide) (by decide)]
      refine ⟨⟨?_, ?_⟩, ?_⟩
      · rwa [binaryNameOf, String.toList_ofList]
      · rw [binaryNameOf, String.toList_ofList]
        exact not_mem_swap (by decide) name
      · rw [descriptor, binaryNameOf, String.toList_ofList, swap_swap_eq, swap_append]
        rfl
  | @array front element inner ih =>
      obtain ⟨spelled, written⟩ := ih
      refine ⟨spelled.arrayOf_one, ?_⟩
      rw [descriptor_arrayOf_one spelled, ← written]
      rfl

/-- A character that is no slash stood there before the periods were written as slashes. -/
theorem eq_of_swap_cons {c : Char} {text tail : List Char} (swapped : swap '.' '/' text = c :: tail)
    (notSlash : c ≠ '/') : ∃ rest, text = c :: rest ∧ swap '.' '/' rest = tail := by
  obtain ⟨d, rest, rfl, same, others⟩ := List.map_eq_cons_iff.mp swapped
  refine ⟨rest, ?_, others⟩
  split at same
  · exact absurd same.symm notSlash
  · rw [same]

theorem spells_element {front : List Char} {element : JavaType} (single : element.IsElement)
    (written : swap '.' '/' front = descriptor element) : Spells front element := by
  cases element with
  | void | array _ _ => exact single.elim
  | primitive kind =>
      obtain ⟨_, _, _, _, _, slash⟩ := tagOf_ne kind
      obtain ⟨rest, rfl, nothing⟩ := eq_of_swap_cons written slash
      rw [List.map_eq_nil_iff.mp nothing]
      exact .primitive kind
  | reference name =>
      obtain ⟨noEnd, noSlash⟩ := single
      obtain ⟨rest, rfl, body⟩ := eq_of_swap_cons written (by decide)
      obtain ⟨inner, ending, rfl, named, ended⟩ := List.map_eq_append_iff.mp body
      obtain ⟨tail, rfl, nothing⟩ := eq_of_swap_cons ended (by decide)
      have same : swap '.' '/' inner = swap '.' '/' name.toList := named
      have kept (text : List Char) : ';' ∈ swap '.' '/' text ↔ ';' ∈ text :=
        mem_swap_of_ne (by decide) (by decide) text
      have unended : ';' ∉ inner := by
        rwa [← kept inner, same, kept]
      have dotted : binaryNameOf inner = name := by
        rw [binaryNameOf, ← swap_swap_eq '.' '/', same, swap_swap noSlash, String.ofList_toList]
      rw [List.map_eq_nil_iff.mp nothing, ← dotted]
      exact .reference unended

theorem spells_of_swap {front : List Char} {type : JavaType} (spelled : type.IsFieldType)
    (written : swap '.' '/' front = descriptor type) : Spells front type := by
  cases type with
  | void => exact spelled.elim
  | primitive kind =>
      have single : (JavaType.primitive kind).IsElement := spelled
      exact spells_element single written
  | reference name =>
      have single : (JavaType.reference name).IsElement := spelled
      exact spells_element single written
  | array element rank =>
      obtain ⟨positive, single⟩ := spelled
      induction rank, positive using Nat.le_induction generalizing front with
      | base =>
          obtain ⟨rest, rfl, body⟩ := eq_of_swap_cons written (by decide)
          have wrapped := JavaType.arrayOf_succ_of_not_array single.isArray_eq_false 0
          exact wrapped ▸ (spells_element single body).array
      | succ rank positive ih =>
          obtain ⟨rest, rfl, body⟩ := eq_of_swap_cons written (by decide)
          exact JavaType.arrayOf_array element rank 1 ▸ (ih body).array

theorem spells_iff {front : List Char} {type : JavaType} :
    Spells front type ↔ type.IsFieldType ∧ swap '.' '/' front = descriptor type := by
  constructor
  · exact isFieldType_of_spells
  · rintro ⟨spelled, written⟩
    exact spells_of_swap spelled written

inductive SpellsAll : List Char → List JavaType → Prop where
  | nil : SpellsAll [] []
  | cons {front back : List Char} {type : JavaType} {types : List JavaType}
      (first : Spells front type) (others : SpellsAll back types) :
      SpellsAll (front ++ back) (type :: types)

/-- No type starts with the closing parenthesis, so a type at the front is a parameter. -/
theorem parametersAt_of_typeAt {text after : List Char} {type : JavaType}
    (found : typeAt text = .ok (type, after)) :
    parametersAt text = (parametersAt after).map fun (types, rest) => (type :: types, rest) := by
  match text with
  | [] => simp [typeAt] at found
  | c :: rest =>
      have inside : c ≠ ')' := by
        rintro rfl
        simp [typeAt, primitiveOfTag?] at found
      rw [parametersAt, if_neg inside]
      split
      · rename_i fault failed
        rw [failed] at found
        cases found
      · rename_i type' after' found'
        rw [found'] at found
        cases found
        cases parametersAt after <;> rfl

theorem parametersAt_of_spells {front : List Char} {types : List JavaType}
    (spelled : SpellsAll front types) (rest : List Char) :
    parametersAt (front ++ ')' :: rest) = .ok (types, rest) := by
  induction spelled with
  | nil => simp [parametersAt]
  | cons first others ih =>
      rw [List.append_assoc, parametersAt_of_typeAt (typeAt_of_spells first _), ih]
      rfl

theorem spells_of_parametersAt {text after : List Char} {types : List JavaType}
    (found : parametersAt text = .ok (types, after)) :
    ∃ front, text = front ++ ')' :: after ∧ SpellsAll front types := by
  fun_induction parametersAt text generalizing types after with
  | case1 => cases found
  | case2 rest =>
      cases found
      exact ⟨[], rfl, .nil⟩
  | case3 c rest inside fault failed => cases found
  | case4 c rest inside type middle front fault failed ih => cases found
  | case5 c rest inside type middle front others remaining inner ih =>
      cases found
      obtain ⟨back, rfl, spelled⟩ := ih inner
      obtain ⟨first, same, single⟩ := spells_of_typeAt front
      exact ⟨first ++ back, by rw [same, List.append_assoc], .cons single spelled⟩

theorem spellsAll_iff {front : List Char} {types : List JavaType} :
    SpellsAll front types ↔
      (∀ type ∈ types, type.IsFieldType) ∧ swap '.' '/' front = types.flatMap descriptor := by
  constructor
  · intro spelled
    induction spelled with
    | nil => exact ⟨nofun, rfl⟩
    | cons first others ih =>
        obtain ⟨single, written⟩ := spells_iff.mp first
        rw [List.forall_mem_cons, swap_append, written, ih.2]
        exact ⟨⟨single, ih.1⟩, rfl⟩
  · rintro ⟨spelled, written⟩
    induction types generalizing front with
    | nil =>
        rw [List.map_eq_nil_iff.mp written]
        exact .nil
    | cons type types ih =>
        rw [List.forall_mem_cons] at spelled
        obtain ⟨first, others, rfl, same, rest⟩ := List.map_eq_append_iff.mp written
        exact .cons (spells_of_swap spelled.1 same) (ih spelled.2 rest)

theorem returnTypeAt_eq_ok_iff {text : List Char} {type : JavaType} :
    returnTypeAt text = .ok (type, []) ↔
      type.IsReturnType ∧ swap '.' '/' text = descriptor type := by
  unfold returnTypeAt
  split
  · rename_i rest
    constructor
    · intro found
      cases found
      exact ⟨.inl rfl, rfl⟩
    · rintro ⟨rfl | spelled, written⟩
      · have nothing := List.map_eq_nil_iff.mp (List.cons.inj written).2
        rw [nothing]
      · have impossible := typeAt_of_spells (spells_of_swap spelled written) []
        simp [typeAt, primitiveOfTag?] at impossible
  · rename_i other
    rw [typeAt_eq_ok_iff]
    constructor
    · rintro ⟨front, rfl, spelled⟩
      rw [List.append_nil]
      obtain ⟨single, written⟩ := spells_iff.mp spelled
      exact ⟨.inr single, written⟩
    · rintro ⟨rfl | spelled, written⟩
      · obtain ⟨rest, rfl, _⟩ := eq_of_swap_cons written (by decide)
        exact absurd rfl (other rest)
      · exact ⟨text, (List.append_nil text).symm, spells_of_swap spelled written⟩

theorem methodTypes_eq_ok {text : List Char} {parameters : List JavaType} {returnType : JavaType} :
    methodTypes text = .ok (parameters, returnType) ↔
      ∃ inner middle, text = '(' :: inner ∧ parametersAt inner = .ok (parameters, middle) ∧
        returnTypeAt middle = .ok (returnType, []) := by
  cases text with
  | nil => simp [methodTypes]
  | cons c inner =>
      by_cases opening : c = '('
      · cases front : parametersAt inner with
        | error fault => simp [methodTypes, opening, front, bind, Except.bind]
        | ok result =>
            obtain ⟨types, middle⟩ := result
            cases back : returnTypeAt middle with
            | error fault => simp [methodTypes, opening, front, back, bind, Except.bind]
            | ok result =>
                obtain ⟨type, rest⟩ := result
                cases rest <;>
                  simp [methodTypes, opening, front, back, bind, Except.bind]
      · simp [methodTypes, opening]

/-- What a text must be to spell the types of a method. A period may stand for each slash. -/
structure SpellsMethod (text : List Char) (parameters : List JavaType) (returnType : JavaType) :
    Prop where
  fieldTypes : ∀ type ∈ parameters, type.IsFieldType
  returned : returnType.IsReturnType
  spelling : swap '.' '/' text = methodDescriptor parameters returnType

theorem methodTypes_eq_ok_iff {text : List Char} {parameters : List JavaType}
    {returnType : JavaType} :
    methodTypes text = .ok (parameters, returnType) ↔ SpellsMethod text parameters returnType := by
  rw [methodTypes_eq_ok]
  constructor
  · rintro ⟨inner, middle, rfl, front, back⟩
    obtain ⟨spelling, rfl, all⟩ := spells_of_parametersAt front
    obtain ⟨spelled, written⟩ := spellsAll_iff.mp all
    obtain ⟨returned, last⟩ := returnTypeAt_eq_ok_iff.mp back
    refine ⟨spelled, returned, ?_⟩
    rw [methodDescriptor, ← written, ← last, ← List.cons_append, swap_append]
    rfl
  · rintro ⟨spelled, returned, written⟩
    obtain ⟨inner, rfl, body⟩ := eq_of_swap_cons written (by decide)
    obtain ⟨front, back, rfl, same, rest⟩ := List.map_eq_append_iff.mp body
    obtain ⟨middle, rfl, last⟩ := eq_of_swap_cons rest (by decide)
    exact ⟨_, middle, rfl, parametersAt_of_spells (spellsAll_iff.mpr ⟨spelled, same⟩) middle,
      returnTypeAt_eq_ok_iff.mpr ⟨returned, last⟩⟩

theorem swap_descriptor (type : JavaType) : swap '.' '/' (descriptor type) = descriptor type := by
  induction type with
  | void => rfl
  | primitive kind => cases kind <;> rfl
  | reference name =>
      rw [descriptor, swap_append, ← List.singleton_append, swap_append, swap_idem (by decide)]
      rfl
  | array element rank ih =>
      rw [descriptor, swap_append, ih]
      simp [swap]

theorem swap_flatMap_descriptor (types : List JavaType) :
    swap '.' '/' (types.flatMap descriptor) = types.flatMap descriptor := by
  induction types with
  | nil => rfl
  | cons type types ih => rw [List.flatMap_cons, swap_append, swap_descriptor, ih]

theorem methodTypes_methodDescriptor {parameters : List JavaType} {returnType : JavaType}
    (spelled : ∀ type ∈ parameters, type.IsFieldType) (returned : returnType.IsReturnType) :
    methodTypes (methodDescriptor parameters returnType) = .ok (parameters, returnType) := by
  refine methodTypes_eq_ok_iff.mpr ⟨spelled, returned, ?_⟩
  have front := swap_flatMap_descriptor parameters
  have back := swap_descriptor returnType
  calc swap '.' '/' (methodDescriptor parameters returnType)
      = '(' :: swap '.' '/' (parameters.flatMap descriptor ++ ')' :: descriptor returnType) := rfl
    _ = '(' :: (swap '.' '/' (parameters.flatMap descriptor) ++
          ')' :: swap '.' '/' (descriptor returnType)) := by rw [swap_append]; rfl
    _ = methodDescriptor parameters returnType := by rw [front, back]; rfl

end ClassFile

end Stubwright
