import Stubwright.Proofs.Disk.Path
import Stubwright.Text.Utf8

namespace Stubwright

namespace Text

variable {text left right : List Char} {separator : Char}

def width : List Char → Nat
  | [] => 0
  | c :: text => c.utf8Size + width text

@[simp]
theorem width_nil : width [] = 0 := rfl

@[simp]
theorem width_cons (c : Char) (text : List Char) : width (c :: text) = c.utf8Size + width text := rfl

@[simp]
theorem width_append (left right : List Char) : width (left ++ right) = width left + width right := by
  induction left with
  | nil => rw [List.nil_append, width_nil, Nat.zero_add]
  | cons c left ih => rw [List.cons_append, width_cons, ih, width_cons, Nat.add_assoc]

theorem length_encode (text : List Char) : (Utf8.encode text).length = width text := by
  induction text with
  | nil => rfl
  | cons c text ih =>
      have front : Utf8.encode (c :: text) = String.utf8EncodeChar c ++ Utf8.encode text := rfl
      rw [front, List.length_append, String.length_utf8EncodeChar, ih, width_cons]

theorem utf8ByteSize_eq_width (text : String) : text.utf8ByteSize = width text.toList := by
  have bytes : text.toByteArray = text.toList.utf8Encode := by
    conv_lhs => rw [← text.ofList_toList, String.toByteArray_ofList]
  rw [String.utf8ByteSize, bytes, List.utf8Encode, List.size_toByteArray]
  exact length_encode _

def widths (separator : Char) : List (List Char) → Nat
  | [] => 0
  | piece :: others => width piece + separator.utf8Size + widths separator others

theorem widths_append (separator : Char) (front back : List (List Char)) :
    widths separator (front ++ back) = widths separator front + widths separator back := by
  induction front with
  | nil => rw [List.nil_append, widths, Nat.zero_add]
  | cons piece front ih => simp only [List.cons_append, widths, ih, Nat.add_assoc]

theorem widths_cut (separator : Char) (text : List Char) :
    widths separator (cut separator text) = width text + separator.utf8Size := by
  induction text with
  | nil =>
      rw [cut, widths]
      rfl
  | cons c text ih =>
      by_cases same : c = separator
      · rw [same, cut_cons_self, widths, ih, width_nil, width_cons]
        omega
      · obtain ⟨first, rest, pieces⟩ := exists_cut_eq_cons separator text
        rw [pieces, widths] at ih
        rw [cut_cons_of_ne same pieces, widths, width_cons, width_cons]
        omega

theorem width_join_le (separator : Char) (pieces : List (List Char)) :
    width (join [separator] pieces) ≤ widths separator pieces := by
  induction pieces with
  | nil => exact Nat.zero_le _
  | cons piece others ih =>
      rw [widths]
      cases others with
      | nil =>
          rw [join]
          omega
      | cons next others =>
          rw [join_cons_cons, width_append, width_append, width_cons, width_nil]
          omega

theorem widths_filter_le (separator : Char) (keep : List Char → Bool) (pieces : List (List Char)) :
    widths separator (pieces.filter keep) ≤ widths separator pieces := by
  induction pieces with
  | nil => exact Nat.le_refl _
  | cons piece others ih =>
      rw [widths, List.filter_cons]
      split
      · rw [widths]
        omega
      · omega

end Text

namespace Disk.Path

open Text

theorem width_components_le (path : String) :
    width ("/".intercalate (components path)).toList ≤ width path.toList + 3 := by
  have joined : ("/".intercalate (components path)).toList =
      Text.join ['/'] ((components path).map String.toList) := by
    rw [join_eq_intercalate, String.toList_intercalate]
    rfl
  have kept : ((pieces path).filter isComponent).map String.toList =
      (cut '/' path.toList).filter fun piece => isComponent (String.ofList piece) := by
    rw [pieces, List.filter_map, List.map_map]
    have back : String.toList ∘ String.ofList = id := funext fun _ => String.toList_ofList
    rw [back, List.map_id]
    rfl
  have lead_le : widths '/' ((lead path).map String.toList) ≤ 2 := by
    rw [lead]
    split
    · decide
    · split <;> decide
  have parts : (components path).map String.toList = (lead path).map String.toList ++
      (cut '/' path.toList).filter fun piece => isComponent (String.ofList piece) := by
    rw [components_eq, List.map_append, kept]
  have all := widths_filter_le '/' (fun piece => isComponent (String.ofList piece))
    (cut '/' path.toList)
  have slash : '/'.utf8Size = 1 := by decide
  rw [widths_cut, slash] at all
  have whole := width_join_le '/' ((components path).map String.toList)
  rw [← joined, parts, widths_append] at whole
  omega

theorem width_le_join (base more : String) : width more.toList ≤ width (join base more).toList := by
  cases absolute : isAbsolute more with
  | true => rw [join_of_absolute absolute]
  | false =>
      rw [join_eq_stem absolute, String.toList_append, width_append]
      exact Nat.le_add_left _ _

end Disk.Path

end Stubwright
