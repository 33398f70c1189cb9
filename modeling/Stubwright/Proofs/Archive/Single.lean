import Stubwright.Proofs.Archive.Whereabouts
import Stubwright.Proofs.Text.Utf8

namespace Stubwright.Archive

open Text

variable {deflater : Deflater} {bytes : List UInt8} {start : Nat} {name : String}
  {content : List UInt8}

/-- Without a mark a name is read byte by byte, which is right below 128. -/
theorem map_characterOf_encode {text : List Char}
    (ascii : ∀ byte ∈ Utf8.encode text, byte.toNat < 128) :
    (Utf8.encode text).map characterOf = text := by
  induction text with
  | nil => rfl
  | cons c text ih =>
      rw [Utf8.encode_cons] at ascii ⊢
      have rest := ih fun byte member => ascii byte (List.mem_append_right _ member)
      by_cases small : c.toNat < 0x80
      · obtain ⟨byte, spelled, same⟩ := Utf8.encodeChar_one small
        have character : characterOf byte = c := by
          rw [characterOf, same, if_pos small, Char.ofNat_toNat]
        rw [spelled, List.singleton_append, List.map_cons, rest, character]
      · obtain ⟨lead, tail, spelled, -⟩ := Utf8.front_encodeChar c []
        have member : lead ∈ String.utf8EncodeChar c := by simp [spelled]
        have large := Utf8.le_of_mem_encodeChar (Nat.le_of_not_lt small) member
        have few := ascii lead (List.mem_append_left _ member)
        omega

theorem text_of_nameFlags (name : String) :
    (if (nameFlags (Utf8.encodeString name)).testBit 11 then
        Utf8.decodeLossy (Utf8.encodeString name)
      else (Utf8.encodeString name).map characterOf) = name.toList := by
  rw [nameFlags]
  by_cases ascii : (Utf8.encodeString name).all (·.toNat < 128)
  · have small : ∀ byte ∈ Utf8.encode name.toList, byte.toNat < 128 := by
      simpa [Utf8.encodeString] using ascii
    rw [if_pos ascii, if_neg (by decide)]
    exact map_characterOf_encode small
  · rw [if_neg ascii, if_pos (by decide)]
    exact Utf8.decodeLossy_of_decode? (Utf8.decode?_encode _)

theorem nameFlags_cases (name : List UInt8) : nameFlags name = 0 ∨ nameFlags name = Nat.pow 2 11 := by
  rw [nameFlags]
  split
  · exact .inl rfl
  · exact .inr rfl

def entryOf (deflater : Deflater) (name : String) (content : List UInt8) : Entry :=
  { name
    method := .deflated
    isEncrypted := false
    isSealed := false
    checksum := (Archive.checksum content).toNat
    size := content.length
    storedSize := (deflater.deflate content).length
    start := 0 }

theorem directoryEntry_of_stands
    (stands : Stands bytes start (directoryRecord deflater (Utf8.encodeString name) content))
    (small : (Utf8.encodeString name).length < Nat.pow 256 2)
    (fits : fits deflater content = true) :
    directoryEntry bytes 0 start =
      .ok (entryOf deflater name content, start + 46 + (Utf8.encodeString name).length) := by
  simp only [directoryRecord, description, List.append_assoc, stands_append, length_fieldOf,
    Nat.add_assoc, show directoryMark.length = 4 from rfl, Nat.reduceAdd] at stands
  obtain ⟨mark, -, -, flags, method, -, -, sum, storedSize, size, nameSize, extraSize, comment, -,
    -, -, first, written⟩ := stands
  simp only [Archive.fits, sizeFits, Bool.and_eq_true, decide_eq_true_eq] at fits
  have sizes : content.length < Nat.pow 256 4 ∧ (deflater.deflate content).length < Nat.pow 256 4 :=
    ⟨Nat.lt_succ_of_le fits.1, Nat.lt_succ_of_le fits.2⟩
  have flagsFit : nameFlags (Utf8.encodeString name) < Nat.pow 256 2 ∧
      (nameFlags (Utf8.encodeString name)).testBit 0 = false := by
    rcases nameFlags_cases (Utf8.encodeString name) with plain | marked
    · rw [plain]
      decide
    · rw [marked]
      decide
  have text := text_of_nameFlags name
  have noExtra (entry : Entry) : entry.withExtra [] = .ok entry := by rw [Entry.withExtra.eq_def]
  have known : Method.ofNumber 8 ≠ .unknown encryptingMethod := by decide
  have sumFits : (checksum content).toNat < Nat.pow 256 4 := (checksum content).toNat_lt
  unfold directoryEntry
  rw [mark.markAt rfl, flags.numberAt flagsFit.1, method.numberAt (by decide), nameSize.numberAt small,
    extraSize.numberAt (by decide), comment.numberAt (by decide), sum.numberAt sumFits,
    storedSize.numberAt sizes.2, size.numberAt sizes.1, first.numberAt (by decide)]
  simp only [ok_bind, written.bytesAt, bytesAt_zero]
  rw [if_neg (by simp)]
  simp only [text, flagsFit.2, String.ofList_toList, noExtra, ok_bind]
  rw [if_neg (by simp [known]), if_neg (by simp [offsetLimit])]
  rfl

theorem content_of_stands (entries : List Entry)
    (stands : Stands bytes 0 (localRecord deflater (Utf8.encodeString name) content))
    (small : (Utf8.encodeString name).length < Nat.pow 256 2) :
    Archive.content ⟨bytes, entries⟩ (entryOf deflater name content) = .ok content := by
  simp only [localRecord, description, List.append_assoc, stands_append, length_fieldOf,
    show localMark.length = 4 from rfl, Nat.reduceAdd] at stands
  obtain ⟨mark, -, -, -, -, -, -, -, -, nameSize, extraSize, -, written⟩ := stands
  have taken : (bytes.drop (0 + 30 + (Utf8.encodeString name).length + 0)).take
      (deflater.deflate content).length = deflater.deflate content := by
    rw [Nat.add_zero, Nat.zero_add]
    exact (List.prefix_iff_eq_take.mp written).symm
  have stored : Archive.storedContent ⟨bytes, entries⟩ (entryOf deflater name content) =
      .ok (deflater.deflate content) := by
    unfold storedContent entryOf
    dsimp only
    rw [if_neg (by simp [placeLimit]), mark.markAt rfl, nameSize.numberAt small,
      extraSize.numberAt (by decide)]
    simp only [ok_bind, taken]
    rw [if_neg (by simp)]
    rfl
  have readable : ¬ ((entryOf deflater name content).isEncrypted ||
      (entryOf deflater name content).isSealed) = true := Bool.false_ne_true
  have inflated := deflater.inflates content
  unfold Archive.content
  rw [if_neg readable, stored, ok_bind, entryOf]
  dsimp only
  rw [inflated, ok_bind]
  exact if_pos rfl

/-- The directory is found, with a large end record in front of the other one or without. -/
theorem whereabouts_single (small : (Utf8.encodeString name).length < Nat.pow 256 2)
    (fits : fits deflater content = true) (ordinary : ¬ SpellsLocator (Utf8.encodeString name)) :
    whereabouts (single deflater name content) =
      .ok ⟨(localRecord deflater (Utf8.encodeString name) content).length, 0, 1⟩ := by
  let first := localRecord deflater (Utf8.encodeString name) content
  let directory := directoryRecord deflater (Utf8.encodeString name) content
  let large := largeRecords directory.length first.length
  let last := endRecordOf directory.length first.length
  have whole : single deflater name content = first ++ directory ++ large ++ last := rfl
  have lastLength : last.length = endSize := length_endRecordOf _ _
  have mark : endMark <+: last := by simp [last, endRecordOf]
  have found : lastEndRecord? 0 none (single deflater name content) =
      some (0 + (first ++ directory ++ large).length) :=
    lastEndRecord?_append (first ++ directory ++ large) none mark lastLength
  have records : Stands (single deflater name content) 0 (first ++ directory ++ large ++ last) :=
    stands_self _
  have ends : (single deflater name content).length =
      first.length + directory.length + large.length + endSize := by
    rw [whole, List.length_append, lastLength, List.length_append, List.length_append]
  simp only [stands_append, List.length_append, Nat.zero_add] at records
  obtain ⟨⟨⟨-, directoryStands⟩, largeStands⟩, lastStands⟩ := records
  rw [List.length_append, List.length_append, Nat.zero_add] at found
  by_cases near : max directory.length first.length ≤ fullNumber
  · have none : large = [] := if_pos near
    rw [none, List.length_nil, Nat.add_zero] at found lastStands ends
    exact whereabouts_of_stands found ends directoryStands lastStands near ordinary
  · have both : large = largeEndRecordOf directory.length first.length ++
        locatorOf directory.length first.length := if_neg near
    rw [both, List.length_append, length_largeEndRecordOf, length_locatorOf, ← Nat.add_assoc]
      at found lastStands ends
    rw [both, stands_append, length_largeEndRecordOf] at largeStands
    have reachable : first.length + directory.length < placeLimit := by
      have firstLength : first.length =
          30 + (Utf8.encodeString name).length + (deflater.deflate content).length :=
        length_localRecord deflater (Utf8.encodeString name) content
      have directoryLength : directory.length = 46 + (Utf8.encodeString name).length :=
        length_directoryRecord deflater (Utf8.encodeString name) content
      simp only [Archive.fits, sizeFits, Bool.and_eq_true, decide_eq_true_eq] at fits
      have limits : Nat.pow 256 2 = 65536 ∧ fullNumber = 4294967295 ∧
          placeLimit = 9223372036854775808 := by decide
      omega
    exact whereabouts_of_large found ends rfl largeStands.1 largeStands.2 lastStands reachable

/-- An archive with one entry holds just that, read from its bytes alone. -/
theorem contents_single (small : (Utf8.encodeString name).length < Nat.pow 256 2)
    (fits : fits deflater content = true) (ordinary : ¬ SpellsLocator (Utf8.encodeString name)) :
    ∃ archive, ofBytes (single deflater name content) = .ok archive ∧
      archive.contents = .ok [(name, content)] := by
  let first := localRecord deflater (Utf8.encodeString name) content
  let directory := directoryRecord deflater (Utf8.encodeString name) content
  have there := whereabouts_single small fits ordinary
  have records : Stands (single deflater name content) 0 (first ++ directory ++
      largeRecords directory.length first.length ++ endRecordOf directory.length first.length) :=
    stands_self _
  simp only [stands_append, Nat.zero_add] at records
  obtain ⟨⟨⟨firstStands, directoryStands⟩, -⟩, -⟩ := records
  have listed := directoryEntry_of_stands directoryStands small fits
  have read := fun entries => content_of_stands entries firstStands small
  refine ⟨⟨single deflater name content, [entryOf deflater name content]⟩, ?_, ?_⟩
  · unfold ofBytes
    rw [there]
    simp only [ok_bind, directoryEntries]
    rw [listed]
    rfl
  · unfold contents
    simp only [List.mapM_cons, List.mapM_nil, read, ok_bind]
    rfl

end Stubwright.Archive
