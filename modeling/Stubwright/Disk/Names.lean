import Stubwright.Disk.World

/-!
Names for temporary files and directories. A name has a fixed beginning and a fixed end; what stands
between them may be drawn at random, as long as the whole name is not taken.
-/
namespace Stubwright.Disk

structure Names where
  /-- What stands between a beginning and an end. -/
  choose : (taken : List String) → (start stop : String) → String
  fresh : ∀ taken start stop, start ++ choose taken start stop ++ stop ∉ taken
  flat : ∀ taken start stop, '/' ∉ (choose taken start stop).toList

def sixDigits (number : Nat) : String :=
  let digits := toString number
  String.ofList (List.replicate (6 - digits.length) '0') ++ digits

theorem ofDigitChars_zeros (count : Nat) (digits : List Char) :
    Nat.ofDigitChars 10 (List.replicate count '0' ++ digits) 0 = Nat.ofDigitChars 10 digits 0 := by
  induction count with
  | zero => rfl
  | succ count ih =>
      rw [List.replicate_succ, List.cons_append, ← ih]
      rfl

theorem sixDigits_injective {first second : Nat} (same : sixDigits first = sixDigits second) :
    first = second := by
  have valued (number : Nat) : Nat.ofDigitChars 10 (sixDigits number).toList 0 = number := by
    rw [sixDigits, String.toList_append, String.toList_ofList, ofDigitChars_zeros,
      Nat.toString_eq_ofList_toDigits, String.toList_ofList, Nat.ofDigitChars_ten_toDigits]
  rw [← valued first, same, valued second]

theorem slash_not_mem_sixDigits (number : Nat) : '/' ∉ (sixDigits number).toList := by
  intro member
  rw [sixDigits, String.toList_append, String.toList_ofList, List.mem_append,
    Nat.toString_eq_ofList_toDigits, String.toList_ofList] at member
  rcases member with zeros | digits
  · cases List.eq_of_mem_replicate zeros
  · have digit := Nat.isDigit_of_mem_toDigits (by decide) (by decide) digits
    contradiction

def firstNumber (taken : List String) (start stop : String) : Nat :=
  ((List.range (taken.length + 1)).find? fun number =>
    !taken.contains (start ++ sixDigits number ++ stop)).getD 0

/-- There are more numbers than names that are taken. -/
theorem firstNumber_fresh (taken : List String) (start stop : String) :
    start ++ sixDigits (firstNumber taken start stop) ++ stop ∉ taken := by
  let name (number : Nat) : String := start ++ sixDigits number ++ stop
  have distinct : ((List.range (taken.length + 1)).map name).Nodup := by
    refine List.pairwise_map.mpr (List.nodup_range.imp fun {first second} differ same => ?_)
    rw [String.append_left_inj, String.append_right_inj] at same
    exact differ (sixDigits_injective same)
  rw [firstNumber]
  cases found : (List.range (taken.length + 1)).find? fun number =>
      !taken.contains (start ++ sixDigits number ++ stop) with
  | none =>
      have all_taken : (List.range (taken.length + 1)).map name ⊆ taken := by
        intro other listed
        obtain ⟨number, among, rfl⟩ := List.mem_map.mp listed
        simpa [name] using List.find?_eq_none.mp found number among
      have length := distinct.length_le_of_subset all_taken
      rw [List.length_map, List.length_range] at length
      omega
  | some number => simpa using List.find?_some found

def Names.numbered : Names where
  choose taken start stop := sixDigits (firstNumber taken start stop)
  fresh := firstNumber_fresh
  flat _ _ _ := slash_not_mem_sixDigits _

/-- A name that does not occur below a place. -/
def freshName (names : Names) (tree : Tree) (place : Place) (start stop : String) : String :=
  start ++ names.choose (tree.namesBelow place) start stop ++ stop

def freshPath (names : Names) (world : World) (directory start stop : String) : String :=
  let place := match world.locate directory with
    | .ok spot => spot.place
    | .error _ => []
  Path.join directory (freshName names world.tree place start stop)

end Stubwright.Disk
