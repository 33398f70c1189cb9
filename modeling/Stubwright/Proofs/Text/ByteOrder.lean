import Mathlib.Data.String.Basic
import Stubwright.Proofs.Text.Utf8

/-!
Texts in the order of their bytes. Longer encodings begin with greater bytes and the bits of a
character are spread over its bytes from the highest down, so comparing characters and comparing bytes
come to the same.
-/
namespace Stubwright.Text.Utf8

variable {left right : String}

/-- The first of two texts in the order of their bytes. -/
def Precedes (left right : String) : Prop :=
  encodeString left < encodeString right

instance (left right : String) : Decidable (Precedes left right) :=
  inferInstanceAs (Decidable (_ < _))

theorem toNat_encodeChar (c : Char) :
    (String.utf8EncodeChar c).map UInt8.toNat =
      if c.toNat < 0x80 then [c.toNat]
      else if c.toNat < 0x800 then [c.toNat / 64 + 192, c.toNat % 64 + 128]
      else if c.toNat < 0x10000 then
        [c.toNat / 4096 + 224, c.toNat / 64 % 64 + 128, c.toNat % 64 + 128]
      else
        [c.toNat / 262144 + 240, c.toNat / 4096 % 64 + 128, c.toNat / 64 % 64 + 128,
          c.toNat % 64 + 128] := by
  have value : c.val.toNat = c.toNat := rfl
  have scalar := toNat_scalar c
  rw [String.utf8EncodeChar, value]
  split_ifs
  all_goals
    simp only [List.map_cons, List.map_nil, UInt8.toNat_ofNat', List.cons.injEq, and_true]
    omega

theorem lt_of_map_toNat {bytes others : List UInt8}
    (less : bytes.map UInt8.toNat < others.map UInt8.toNat) : bytes < others := by
  induction bytes generalizing others with
  | nil =>
      cases others with
      | nil => exact absurd less (List.lt_irrefl _)
      | cons => exact List.nil_lt_cons _ _
  | cons byte bytes ih =>
      cases others with
      | nil => exact absurd less (List.not_lt_nil _)
      | cons other others =>
          rw [List.map_cons, List.map_cons, List.cons_lt_cons_iff, UInt8.toNat_inj] at less
          rcases less with before | ⟨same, later⟩
          · exact List.cons_lt_cons_iff.mpr (.inl before)
          · exact List.cons_lt_cons_iff.mpr (.inr ⟨same, ih later⟩)

/-- Some byte of the greater character is the first that differs, whatever follows. -/
theorem encodeChar_lt {c d : Char} (less : c < d) (more other : List UInt8) :
    String.utf8EncodeChar c ++ more < String.utf8EncodeChar d ++ other := by
  have codes : c.toNat < d.toNat := less
  have scalar := toNat_scalar d
  refine lt_of_map_toNat ?_
  rw [List.map_append, List.map_append, toNat_encodeChar, toNat_encodeChar]
  split_ifs
  all_goals
    simp only [List.cons_append, List.nil_append, List.cons_lt_cons_iff]
    omega

theorem encode_lt {text other : List Char} (less : text < other) : encode text < encode other := by
  induction text generalizing other with
  | nil =>
      cases other with
      | nil => exact absurd less (List.lt_irrefl _)
      | cons d other =>
          obtain ⟨lead, tail, spelled, -⟩ := exists_lead d other
          rw [spelled]
          exact List.nil_lt_cons _ _
  | cons c text ih =>
      cases other with
      | nil => exact absurd less (List.not_lt_nil _)
      | cons d other =>
          rw [encode_cons, encode_cons]
          rcases List.cons_lt_cons_iff.mp less with before | ⟨rfl, later⟩
          · exact encodeChar_lt before _ _
          · exact List.append_left_lt (ih later)

theorem precedes_of_lt (less : left < right) : Precedes left right :=
  encode_lt (String.lt_iff.mp less)

theorem compare_eq_lt : Ord.compare left right = .lt ↔ Precedes left right := by
  rw [compare_lt_iff_lt]
  constructor
  · exact precedes_of_lt
  · intro before
    rcases lt_trichotomy left right with less | rfl | greater
    · exact less
    · exact absurd before (List.lt_irrefl _)
    · exact absurd before (List.lt_asymm (precedes_of_lt greater))

end Stubwright.Text.Utf8
