import Stubwright.Text.Utf8

/-!
Bytes as characters: each byte is the character with its number. Text whose encoding is unknown can
be handled character by character that way, and nothing of it is lost.
-/
namespace Stubwright.Text.Octets

def ofBytes (bytes : List UInt8) : List Char :=
  bytes.map fun byte => Char.ofNat byte.toNat

def toBytes (octets : List Char) : List UInt8 :=
  octets.map fun c => UInt8.ofNat c.toNat

def ofString (text : String) : List Char :=
  ofBytes (Utf8.encodeString text)

def toText (octets : List Char) : String :=
  String.ofList (Utf8.decodeLossy (toBytes octets))

theorem toNat_ofNat_byte (byte : UInt8) : (Char.ofNat byte.toNat).toNat = byte.toNat := by
  have small : byte.toNat < 256 := byte.toNat_lt
  have valid : byte.toNat.isValidChar := Or.inl (by omega)
  rw [Char.ofNat, dif_pos valid]
  rfl

theorem toBytes_ofBytes (bytes : List UInt8) : toBytes (ofBytes bytes) = bytes := by
  simp only [toBytes, ofBytes, List.map_map]
  conv => rhs; rw [← List.map_id bytes]
  exact List.map_congr_left fun byte _ => by simp [toNat_ofNat_byte]

end Stubwright.Text.Octets
