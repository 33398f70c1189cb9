import Stubwright.Stub.Rendering
import Stubwright.Proofs.Text.Pieces
import Mathlib.Data.List.Basic

namespace Stubwright

open Text

namespace JavaType

variable {type element : JavaType} {c : Char} {rank : Nat}

/-- But for the mark of nested types both spellings have the same characters. -/
theorem mem_sourceName (notDollar : c ≠ '$') (notPeriod : c ≠ '.') :
    c ∈ type.sourceName.toList ↔ c ∈ type.binaryName.toList := by
  induction type with
  | void | primitive _ => rfl
  | reference name =>
      rw [sourceName, binaryName, swapped, String.toList_ofList, mem_swap_of_ne notDollar notPeriod]
  | array element rank ih =>
      rw [sourceName, binaryName, String.toList_append, String.toList_append, List.mem_append,
        List.mem_append, ih]

theorem newline_not_mem_sourceName (unbroken : '\n' ∉ type.binaryName.toList) :
    '\n' ∉ type.sourceName.toList := by
  rwa [mem_sourceName (by decide) (by decide)]

theorem brackets_succ (rank : Nat) : brackets (rank + 1) = brackets rank ++ "[]" :=
  brackets_add rank 1

theorem append_brackets (rank : Nat) : "[]" ++ brackets rank = brackets (rank + 1) := by
  rw [Nat.add_comm, brackets_add]
  rfl

theorem not_mem_brackets (apart : c ∉ ['[', ']']) (rank : Nat) : c ∉ (brackets rank).toList := by
  induction rank with
  | zero => simp [brackets_zero]
  | succ rank ih => simpa [brackets_succ, ih] using apart

theorem mem_sourceName_array (apart : c ∉ ['[', ']']) :
    c ∈ (array element rank).sourceName.toList ↔ c ∈ element.sourceName.toList := by
  simp [sourceName, not_mem_brackets apart]

theorem sourceName_arrayOf (type : JavaType) (rank : Nat) :
    (type.arrayOf rank).sourceName = type.sourceName ++ brackets rank := by
  cases rank with
  | zero => rw [arrayOf_zero, brackets_zero, String.append_empty]
  | succ rank =>
      cases type with
      | array element inner =>
          rw [arrayOf_array, sourceName, sourceName, brackets_add, String.append_assoc]
      | void | primitive _ | reference _ => rfl

theorem mem_sourceName_arrayOf (apart : c ∉ ['[', ']']) :
    c ∈ (arrayOf element rank).sourceName.toList ↔ c ∈ element.sourceName.toList := by
  simp [sourceName_arrayOf, not_mem_brackets apart]

theorem mem_sourceName_component (apart : c ∉ ['[', ']']) :
    c ∈ type.component.sourceName.toList ↔ c ∈ type.sourceName.toList := by
  cases type with
  | array element rank =>
      rw [component, mem_sourceName_arrayOf apart, mem_sourceName_array apart]
  | void | primitive _ | reference _ => rfl

theorem Flat.component_append (flat : type.Flat) (isArray : type.isArray = true) :
    type.component.sourceName ++ "[]" = type.sourceName := by
  cases type with
  | array element rank =>
      obtain ⟨positive, -⟩ := flat
      obtain ⟨rank, rfl⟩ := Nat.exists_eq_add_one_of_ne_zero (Nat.ne_of_gt positive)
      rw [component, Nat.add_sub_cancel, sourceName_arrayOf, sourceName, brackets_succ,
        String.append_assoc]
  | void | primitive _ | reference _ => contradiction

theorem defaultValue_array (element : JavaType) (rank : Nat) :
    (array element rank).defaultValue =
      some ("new " ++ element.sourceName ++ "[0]" ++ brackets (rank - 1)) := rfl

theorem Flat.sourceName_array (flat : (array element rank).Flat) :
    element.sourceName ++ "[]" ++ brackets (rank - 1) = (array element rank).sourceName := by
  obtain ⟨positive, -⟩ := flat
  obtain ⟨rank, rfl⟩ := Nat.exists_eq_add_one_of_ne_zero (Nat.ne_of_gt positive)
  rw [String.append_assoc, Nat.add_sub_cancel, append_brackets, sourceName]

theorem defaultValue_eq_none : type.defaultValue = none ↔ type = void := by
  cases type with
  | primitive kind => cases kind <;> simp [defaultValue]
  | void | reference _ | array _ _ => simp [defaultValue]

theorem newline_not_mem_defaultValue (unbroken : '\n' ∉ type.binaryName.toList) :
    ∀ value ∈ type.defaultValue, '\n' ∉ value.toList := by
  intro value found
  cases type with
  | void => cases found
  | primitive kind =>
      cases kind <;>
        (simp only [defaultValue, Option.mem_def, Option.some.injEq] at found
         subst found
         decide)
  | reference name =>
      simp only [defaultValue, Option.mem_def, Option.some.injEq] at found
      subst found
      decide
  | array element rank =>
      have clean := newline_not_mem_sourceName unbroken
      rw [mem_sourceName_array (by decide)] at clean
      rw [defaultValue_array, Option.mem_some_iff] at found
      subst found
      have more := not_mem_brackets (c := '\n') (by decide) (rank - 1)
      simp [clean, more]

end JavaType

namespace Stub

variable {c : Char} {isVariadic : Bool} {parameters : List JavaType}

/-- The types of parameters as a stub writes them: for any number of arguments only the last one can
stand, with one dimension less. -/
def writtenTypes (isVariadic : Bool) : List JavaType → List String
  | [] => []
  | [last] =>
      if isVariadic && last.isArray then [last.component.sourceName ++ "..."] else [last.sourceName]
  | first :: rest => first.sourceName :: writtenTypes isVariadic rest

theorem parameterTexts_eq (isVariadic : Bool) (index : Nat) (parameters : List JavaType) :
    parameterTexts isVariadic index parameters =
      (writtenTypes isVariadic parameters).mapIdx fun place type =>
        type ++ " " ++ parameterName (index + place) := by
  induction parameters generalizing index with
  | nil => rfl
  | cons first rest ih =>
      cases rest with
      | nil =>
          have dots : "... " = "..." ++ " " := rfl
          rw [parameterTexts, writtenTypes, dots]
          split <;> simp only [List.mapIdx_cons, List.mapIdx_nil, Nat.add_zero, String.append_assoc]
      | cons next rest =>
          have step : writtenTypes isVariadic (first :: next :: rest) =
              first.sourceName :: writtenTypes isVariadic (next :: rest) := rfl
          have textStep : parameterTexts isVariadic index (first :: next :: rest) =
              (first.sourceName ++ " " ++ parameterName index) ::
                parameterTexts isVariadic (index + 1) (next :: rest) := rfl
          rw [step, textStep, ih, List.mapIdx_cons]
          simp only [Nat.add_assoc, Nat.add_comm 1, Nat.add_zero]

theorem writtenTypes_concat (isVariadic : Bool) (front : List JavaType) (last : JavaType) :
    writtenTypes isVariadic (front ++ [last]) =
      front.map JavaType.sourceName ++
        [if isVariadic && last.isArray then last.component.sourceName ++ "..."
          else last.sourceName] := by
  induction front with
  | nil => rw [List.nil_append, writtenTypes]; split <;> rfl
  | cons first front ih =>
      obtain ⟨next, rest, more⟩ := List.exists_cons_of_ne_nil
        (List.append_ne_nil_of_right_ne_nil front (List.cons_ne_nil last []))
      have step : writtenTypes isVariadic (first :: next :: rest) =
          first.sourceName :: writtenTypes isVariadic (next :: rest) := rfl
      rw [List.cons_append, more, step, ← more, ih, List.map_cons, List.cons_append]

theorem length_writtenTypes (isVariadic : Bool) (parameters : List JavaType) :
    (writtenTypes isVariadic parameters).length = parameters.length := by
  rcases List.eq_nil_or_concat' parameters with rfl | ⟨front, last, rfl⟩
  · rfl
  · simp [writtenTypes_concat]

/-- But for brackets and periods a stub writes no character that no type has. -/
theorem not_mem_writtenTypes (apart : c ∉ ['[', ']', '.'])
    (clean : ∀ type ∈ parameters, c ∉ type.sourceName.toList) :
    ∀ written ∈ writtenTypes isVariadic parameters, c ∉ written.toList := by
  simp only [List.mem_cons, List.not_mem_nil, or_false, not_or] at apart
  rcases List.eq_nil_or_concat' parameters with rfl | ⟨front, last, rfl⟩
  · simp [writtenTypes]
  · intro written member
    have atLast := clean last (by simp)
    rw [writtenTypes_concat, List.mem_append, List.mem_singleton] at member
    rcases member with inFront | rfl
    · obtain ⟨type, listed, rfl⟩ := List.mem_map.mp inFront
      exact clean type (by simp [listed])
    · split
      · rw [← JavaType.mem_sourceName_component (by simp [apart])] at atLast
        simp [atLast, apart]
      · exact atLast

end Stub

end Stubwright
