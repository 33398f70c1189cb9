import Stubwright.Proofs.Text.Utf8
import Stubwright.Text.Utf16

namespace Stubwright.Text.Utf16

theorem toNat_unit {value : Nat} (small : value < 0x10000) :
    (UInt16.ofNat value).toNat = value := by
  rw [UInt16.toNat_ofNat', Nat.mod_eq_of_lt small]

theorem toNat_ofNat {code : Nat} (scalar : code < 0xd800 ∨ 0xdfff < code ∧ code < 0x110000) :
    (Char.ofNat code).toNat = code := by
  rw [Char.ofNat, dif_pos scalar]
  rfl

/-- A code unit that is no surrogate is the number of its character. -/
theorem single_eq {unit : UInt16} (neither : ¬(IsHigh unit ∨ IsLow unit)) :
    single unit = some (Char.ofNat unit.toNat) ∧ (Char.ofNat unit.toNat).toNat = unit.toNat := by
  have small := unit.toNat_lt
  refine ⟨if_neg neither, toNat_ofNat ?_⟩
  simp only [IsHigh, IsLow] at neither
  omega

theorem characters_of_not_pair {first : UInt16} {rest : List UInt16}
    (alone : IsHigh first → ∀ second ∈ rest.head?, ¬IsLow second) :
    characters (first :: rest) = single first :: characters rest := by
  cases rest with
  | nil => rfl
  | cons second rest =>
      have apart : ¬(IsHigh first ∧ IsLow second) := fun both => alone both.1 second rfl both.2
      rw [characters, if_neg apart]

theorem decode?_of_some {units rest : List UInt16} {c : Char}
    (front : characters units = some c :: characters rest) :
    decode? units = (decode? rest).map (c :: ·) := by
  by_cases paired : IsPaired rest
  · have whole : IsPaired units := by simpa [IsPaired, front] using paired
    rw [decode?, decode?, if_pos whole, if_pos paired, text, front]
    rfl
  · have broken : ¬IsPaired units := by simpa [IsPaired, front] using paired
    rw [decode?, decode?, if_neg broken, if_neg paired, Option.map_none]

theorem decode?_of_none {units : List UInt16} {others : List (Option Char)}
    (front : characters units = none :: others) : decode? units = none := by
  have broken : ¬IsPaired units := by simp [IsPaired, front]
  rw [decode?, if_neg broken]

theorem characters_encodeChar_append (c : Char) (units : List UInt16) :
    characters (encodeChar c ++ units) = some c :: characters units := by
  have scalar := toNat_scalar c
  by_cases small : c.toNat < 0x10000
  · have value := toNat_unit small
    have notHigh : ¬IsHigh (UInt16.ofNat c.toNat) := by
      rw [IsHigh, value]
      omega
    have notLow : ¬IsLow (UInt16.ofNat c.toNat) := by
      rw [IsLow, value]
      omega
    have known := (single_eq (not_or_intro notHigh notLow)).1
    rw [value, Char.ofNat_toNat] at known
    rw [encodeChar, if_pos small, List.singleton_append,
      characters_of_not_pair fun high => absurd high notHigh, known]
  · have high := toNat_unit (show 0xd800 + (c.toNat - 0x10000) / 1024 < 0x10000 by omega)
    have low := toNat_unit (show 0xdc00 + (c.toNat - 0x10000) % 1024 < 0x10000 by omega)
    have pairs : IsHigh (UInt16.ofNat (0xd800 + (c.toNat - 0x10000) / 1024)) ∧
        IsLow (UInt16.ofNat (0xdc00 + (c.toNat - 0x10000) % 1024)) := by
      rw [IsHigh, IsLow, high, low]
      omega
    have code : pair (UInt16.ofNat (0xd800 + (c.toNat - 0x10000) / 1024))
        (UInt16.ofNat (0xdc00 + (c.toNat - 0x10000) % 1024)) = c := by
      refine Utf8.ofNat_eq ?_
      rw [high, low]
      omega
    rw [encodeChar, if_neg small, List.cons_append, List.singleton_append, characters,
      if_pos pairs, code]

theorem characters_encode (text : List Char) : characters (encode text) = text.map some := by
  induction text with
  | nil => rfl
  | cons c text ih =>
      have front : encode (c :: text) = encodeChar c ++ encode text := rfl
      rw [front, characters_encodeChar_append, ih, List.map_cons]

/-- No text has a surrogate without its partner, and its code units give it back. -/
theorem decode?_encode (text : List Char) : decode? (encode text) = some text := by
  have paired : IsPaired (encode text) := by simp [IsPaired, characters_encode]
  have same : Utf16.text (encode text) = text := by
    rw [Utf16.text, characters_encode, List.map_map]
    exact List.map_id text
  rw [decode?, if_pos paired, same]

end Stubwright.Text.Utf16
