import Mathlib.Data.List.DropRight
import Mathlib.Data.List.TakeWhile
import Stubwright.Text.Alphanumeric
import Stubwright.Text.Blank

namespace Stubwright.Text

variable {text front back : List Char} {c : Char}

structure IsTrimmed (text : List Char) : Prop where
  begins : ∀ c ∈ text.head?, isBlank c = false
  ends : ∀ c ∈ text.getLast?, isBlank c = false

theorem trim_prefix_trimStart (text : List Char) : trim text <+: trimStart text :=
  List.rdropWhile_prefix isBlank (trimStart text)

theorem mem_of_mem_trim (member : c ∈ trim text) : c ∈ text :=
  (List.dropWhile_sublist isBlank).subset ((trim_prefix_trimStart text).subset member)

theorem isTrimmed_trim (text : List Char) : IsTrimmed (trim text) where
  begins c first := by
    obtain ⟨rest, whole⟩ := trim_prefix_trimStart text
    have start : (trimStart text).head? = some c := by
      rw [← whole, List.head?_append, Option.mem_def.mp first, Option.some_or]
    have visible := List.head?_dropWhile_not isBlank text
    rw [← trimStart, start] at visible
    simpa using visible
  ends c last := by
    have filled : trim text ≠ [] := by
      intro empty
      rw [empty] at last
      cases last
    rw [List.getLast?_eq_some_getLast filled, Option.mem_some_iff] at last
    rw [← last, ← Bool.not_eq_true]
    exact List.rdropWhile_last_not isBlank (trimStart text) filled

theorem trim_of_blank (blank : ∀ c ∈ text, isBlank c = true) : trim text = [] := by
  have nothing : trimStart text = [] := List.dropWhile_eq_nil_iff.mpr blank
  rw [trim, nothing]
  rfl

theorem dropWhile_blanks (blank : ∀ c ∈ front, isBlank c = true)
    (visible : ∀ c ∈ text.head?, isBlank c = false) :
    (front ++ text).dropWhile isBlank = text := by
  rw [List.dropWhile_append_of_pos blank]
  cases text with
  | nil => rfl
  | cons c rest => simp [visible c rfl]

theorem trim_padded (blank : ∀ c ∈ front, isBlank c = true) (trimmed : IsTrimmed text)
    (filled : text ≠ []) (blankToo : ∀ c ∈ back, isBlank c = true) :
    trim (front ++ text ++ back) = text := by
  have atStart : trimStart (front ++ text ++ back) = text ++ back := by
    rw [List.append_assoc]
    refine dropWhile_blanks blank fun c first => trimmed.begins c ?_
    rwa [List.head?_append_of_ne_nil _ filled] at first
  have atEnd : (text ++ back).reverse.dropWhile isBlank = text.reverse := by
    rw [List.reverse_append]
    refine dropWhile_blanks (by simpa using blankToo) fun c last => trimmed.ends c ?_
    rwa [List.head?_reverse] at last
  rw [trim, atStart, trimEnd, atEnd, List.reverse_reverse]

theorem dropWhile_visible (visible : ∀ c ∈ text, isBlank c = false) :
    text.dropWhile isBlank = text := by
  have bare : ([] ++ text).dropWhile isBlank = text :=
    dropWhile_blanks nofun fun c first => visible c (List.mem_of_mem_head? first)
  rwa [List.nil_append] at bare

theorem trim_visible (visible : ∀ c ∈ text, isBlank c = false) : trim text = text := by
  have reversed : ∀ c ∈ text.reverse, isBlank c = false := fun c member =>
    visible c (List.mem_reverse.mp member)
  rw [trim, trimStart, dropWhile_visible visible, trimEnd, dropWhile_visible reversed,
    List.reverse_reverse]

theorem filter_dropWhile_isBlank (text : List Char) :
    (text.dropWhile isBlank).filter (!isBlank ·) = text.filter (!isBlank ·) := by
  induction text with
  | nil => rfl
  | cons c rest ih =>
      cases blank : isBlank c with
      | true => simp [blank, ih]
      | false => simp [blank]

theorem filter_trim (text : List Char) :
    (trim text).filter (!isBlank ·) = text.filter (!isBlank ·) := by
  rw [trim, trimStart, trimEnd, List.filter_reverse, filter_dropWhile_isBlank, List.filter_reverse,
    List.reverse_reverse, filter_dropWhile_isBlank]

theorem blankRanges_apart :
    ∀ blank ∈ blankRanges, ∀ letter ∈ alphanumericRanges,
      letter.2 < blank.1 ∨ blank.2 < letter.1 := by
  decide +kernel

theorem isBlank_of_isAlphanumeric (letter : isAlphanumeric c = true) : isBlank c = false := by
  obtain ⟨range, inTable, within⟩ := List.any_eq_true.mp letter
  rw [isBlank, List.any_eq_false]
  intro blank inBlanks inside
  have apart := blankRanges_apart blank inBlanks range inTable
  simp only [Bool.and_eq_true, decide_eq_true_eq] at within inside
  omega

end Stubwright.Text
