import Stubwright.Text.Alphanumeric
import Stubwright.Text.Blank
import Stubwright.Text.Pieces

namespace Stubwright

open Text

inductive Primitive where
  | boolean | byte | char | short | int | long | float | double
deriving DecidableEq, Repr

namespace Primitive

def all : List Primitive :=
  [boolean, byte, char, short, int, long, float, double]

def name : Primitive → String
  | boolean => "boolean"
  | byte => "byte"
  | char => "char"
  | short => "short"
  | int => "int"
  | long => "long"
  | float => "float"
  | double => "double"

def ofName? (name : String) : Option Primitive :=
  all.find? (·.name == name)

theorem mem_all (kind : Primitive) : kind ∈ all := by
  cases kind <;> decide

theorem ofName?_name (kind : Primitive) : ofName? kind.name = some kind := by
  cases kind <;> rfl

theorem name_of_ofName? {text : String} {kind : Primitive}
    (found : ofName? text = some kind) : kind.name = text := by
  simpa using List.find?_some found

end Primitive

inductive JavaType where
  | void
  | primitive (kind : Primitive)
  | reference (name : String)
  | array (element : JavaType) (rank : Nat)
deriving DecidableEq, Repr, Inhabited

structure MalformedType where
  text : String
deriving DecidableEq, Repr

def MalformedType.message (fault : MalformedType) : String :=
  s!"malformed type name '{fault.text}'"

namespace JavaType

/-- An array type over any element. Nested arrays become one array of the summed rank. -/
def arrayOf (element : JavaType) : Nat → JavaType
  | 0 => element
  | rank + 1 =>
      match element with
      | array inner innerRank => array inner (innerRank + (rank + 1))
      | other => array other (rank + 1)

/-- The type with one dimension less; a type that is no array stays as it is. -/
def component : JavaType → JavaType
  | array element rank => arrayOf element (rank - 1)
  | other => other

def isVoid : JavaType → Bool
  | void => true
  | _ => false

def isPrimitive : JavaType → Bool
  | primitive _ => true
  | _ => false

def isArray : JavaType → Bool
  | array _ _ => true
  | _ => false

def isBoolean : JavaType → Bool
  | primitive .boolean => true
  | _ => false

/-- An array type is flat if it has a dimension and its element is no array; every other type is. -/
def Flat : JavaType → Prop
  | array element rank => 0 < rank ∧ element.isArray = false
  | _ => True

instance : DecidablePred Flat
  | array element rank => inferInstanceAs (Decidable (0 < rank ∧ element.isArray = false))
  | void | primitive _ | reference _ => inferInstanceAs (Decidable True)

def brackets (rank : Nat) : String :=
  String.ofList (List.replicate rank ['[', ']']).flatten

/-- The spelling with binary names, as in `java.util.Map$Entry[]`. -/
def binaryName : JavaType → String
  | void => "void"
  | primitive kind => kind.name
  | reference name => name
  | array element rank => element.binaryName ++ brackets rank

/-- The spelling that source code uses, as in `java.util.Map.Entry[]`. -/
def sourceName : JavaType → String
  | void => "void"
  | primitive kind => kind.name
  | reference name => swapped '$' '.' name
  | array element rank => element.sourceName ++ brackets rank

def isNameChar (c : Char) : Bool :=
  isAlphanumeric c || c == '.' || c == '$' || c == '_'

/-- Strips the array suffixes off a reversed text, with the blanks before each, and counts them. -/
def stripSuffixes : List Char → List Char × Nat
  | ']' :: '[' :: rest =>
      let (base, rank) := stripSuffixes (rest.dropWhile isBlank)
      (base, rank + 1)
  | text => (text, 0)
termination_by text => text.length
decreasing_by
  have := (List.dropWhile_sublist (l := rest) isBlank).length_le
  simp; omega

def ofBaseName (name : String) : JavaType :=
  if name = "void" then void
  else
    match Primitive.ofName? name with
    | some kind => primitive kind
    | none => reference name

/-- Reads a spelling with binary names. Blanks are allowed around it and before each array suffix.
-/
def parse (text : String) : Except MalformedType JavaType :=
  let (reversedBase, rank) := stripSuffixes (trim text.toList).reverse
  let base := reversedBase.reverse
  if base.isEmpty || !base.all isNameChar then .error ⟨text⟩
  else
    let element := ofBaseName (String.ofList base)
    if element.isVoid && rank != 0 then .error ⟨text⟩
    else .ok (arrayOf element rank)

@[simp]
theorem arrayOf_zero (element : JavaType) : arrayOf element 0 = element := rfl

theorem arrayOf_array (element : JavaType) (rank more : Nat) :
    arrayOf (array element rank) more = array element (rank + more) := by
  cases more <;> rfl

theorem arrayOf_succ_of_not_array {element : JavaType} (single : element.isArray = false)
    (rank : Nat) : arrayOf element (rank + 1) = array element (rank + 1) := by
  cases element <;> first | rfl | simp [isArray] at single

theorem arrayOf_arrayOf (type : JavaType) (rank more : Nat) :
    (type.arrayOf rank).arrayOf more = type.arrayOf (rank + more) := by
  cases rank with
  | zero => rw [arrayOf_zero, Nat.zero_add]
  | succ rank =>
      cases type with
      | array element inner => rw [arrayOf_array, arrayOf_array, arrayOf_array, Nat.add_assoc]
      | void | primitive _ | reference _ =>
          rw [arrayOf_succ_of_not_array rfl, arrayOf_array, Nat.add_right_comm,
            arrayOf_succ_of_not_array rfl]

theorem brackets_zero : brackets 0 = "" := rfl

theorem brackets_add (rank more : Nat) : brackets (rank + more) = brackets rank ++ brackets more := by
  rw [brackets, brackets, brackets, ← String.ofList_append, ← List.flatten_append,
    List.replicate_append_replicate]

end JavaType

end Stubwright
