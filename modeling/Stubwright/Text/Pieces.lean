namespace Stubwright.Text

/-- The pieces between the occurrences of a separator; a text without it is its only piece. -/
def cut (separator : Char) : List Char → List (List Char)
  | [] => [[]]
  | c :: rest =>
      if c = separator then [] :: cut separator rest
      else
        match cut separator rest with
        | [] => [[c]]
        | piece :: pieces => (c :: piece) :: pieces

def join (separator : List Char) : List (List Char) → List Char
  | [] => []
  | [piece] => piece
  | piece :: pieces => piece ++ separator ++ join separator pieces

def swap (old new : Char) (text : List Char) : List Char :=
  text.map fun c => if c = old then new else c

def swapped (old new : Char) (text : String) : String :=
  String.ofList (swap old new text.toList)

def cutLast (separator : Char) (text : List Char) : Option (List Char × List Char) :=
  let tail := (text.reverse.takeWhile (· ≠ separator)).reverse
  match text.reverse.dropWhile (· ≠ separator) with
  | [] => none
  | _ :: front => some (front.reverse, tail)

/-- What follows the last occurrence of a character, or everything if it does not occur. -/
def afterLast (separator : Char) (text : List Char) : List Char :=
  (text.reverse.takeWhile (· ≠ separator)).reverse

def dropEnding? (ending text : List Char) : Option (List Char) :=
  if ending.isSuffixOf text then some (text.take (text.length - ending.length)) else none

def dropCarriageReturn (line : List Char) : List Char :=
  (dropEnding? ['\r'] line).getD line

/-- The lines of a text. A last line that is empty is no line. -/
def lines (text : List Char) : List (List Char) :=
  let pieces := cut '\n' text
  let ended := pieces.dropLast.map dropCarriageReturn
  match pieces.getLast? with
  | none | some [] => ended
  | some last => ended ++ [last]

theorem cut_ne_nil (separator : Char) (text : List Char) : cut separator text ≠ [] := by
  cases text with
  | nil => simp [cut]
  | cons c rest =>
      by_cases h : c = separator
      · simp [cut, h]
      · simp only [cut, h, if_false]
        split <;> simp

theorem join_cut (separator : Char) (text : List Char) :
    join [separator] (cut separator text) = text := by
  induction text with
  | nil => rfl
  | cons c rest ih =>
      have some_piece := cut_ne_nil separator rest
      cases pieces : cut separator rest with
      | nil => exact absurd pieces some_piece
      | cons piece others =>
          rw [pieces] at ih
          by_cases h : c = separator
          · simp [cut, h, pieces, join, ih]
          · cases others with
            | nil => simpa [cut, h, pieces, join] using ih
            | cons other others => simpa [cut, h, pieces, join] using ih

end Stubwright.Text
