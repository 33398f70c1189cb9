import Mathlib.Tactic.SplitIfs
import Stubwright.Json.Text

namespace Stubwright.Json

def unitOf (c : Char) : Unit16 :=
  if c.toNat < 0x20 ∧ c ∉ ['\x08', '\x0c', '\n', '\r', '\t'] then .escaped c.toNat else .character c

theorem hexUnit?_hexChar {code : Nat} (small : code < 0x20) :
    hexUnit? '0' '0' (hexChar (code / 16)) (hexChar (code % 16)) = some code := by
  have all : ∀ code < 0x20,
      hexUnit? '0' '0' (hexChar (code / 16)) (hexChar (code % 16)) = some code := by decide
  exact all code small

theorem readUnits_writeChar (c : Char) (rest : List Char) :
    readUnits (writeChar c ++ rest) = ((unitOf c) :: (readUnits rest).1, (readUnits rest).2) := by
  unfold writeChar
  split_ifs with quote backslash backspace feed line ret tab control
  · subst quote
    rfl
  · subst backslash
    rfl
  · subst backspace
    rfl
  · subst feed
    rfl
  · subst line
    rfl
  · subst ret
    rfl
  · subst tab
    rfl
  · have unit : unitOf c = .escaped c.toNat := by
      simp [unitOf, control, backspace, feed, line, ret, tab]
    simp only [List.cons_append, List.nil_append, readUnits, hexUnit?_hexChar control, unit]
  · have unit : unitOf c = .character c := by
      simp [unitOf, control]
    rw [List.cons_append, List.nil_append, readUnits, if_neg control, unit]
    all_goals simp [quote, backslash]

theorem readUnits_text (text : List Char) (rest : List Char) :
    readUnits (text.flatMap writeChar ++ '"' :: rest) = (text.map unitOf, .closed rest) := by
  induction text with
  | nil => simp [readUnits]
  | cons c text ih =>
      rw [List.flatMap_cons, List.append_assoc, readUnits_writeChar, ih]
      rfl

/-- A unit that is no half of a pair stands for its character, whatever follows. -/
theorem combine_unitOf (c : Char) (units : List Unit16) :
    combine false (unitOf c :: units) = (combine false units).map (c :: ·) := by
  unfold unitOf
  split
  · rename_i control
    have notLow : isLowSurrogate c.toNat = false := by
      simp [isLowSurrogate]
      omega
    have notHigh : isHighSurrogate c.toNat = false := by
      simp [isHighSurrogate]
      omega
    have code : Char.ofNat c.toNat = c := Char.ofNat_toNat c
    cases units with
    | nil =>
        simp only [combine, notLow, notHigh, code]
        rfl
    | cons next units =>
        cases next with
        | character d =>
            conv => lhs; rw [combine, notLow, notHigh, code]
            cases combine false (.character d :: units) <;> rfl
        | escaped unit =>
            conv => lhs; rw [combine, notLow, notHigh, code]
            cases combine false (.escaped unit :: units) <;> rfl
  · rw [combine]
    cases combine false units <;> rfl

theorem combine_text (text : List Char) : combine false (text.map unitOf) = .ok text := by
  induction text with
  | nil => rfl
  | cons c text ih =>
      rw [List.map_cons, combine_unitOf, ih]
      rfl

theorem readText_writeText (content : String) (rest : List Char) :
    readText (content.toList.flatMap writeChar ++ '"' :: rest) = .closed (.ok content) rest := by
  have combined := combine_text content.toList
  rw [readText, readUnits_text]
  simp only [combined, Except.map, String.ofList_toList]

end Stubwright.Json
