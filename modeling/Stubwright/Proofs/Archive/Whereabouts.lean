import Stubwright.Archive.Writer
import Stubwright.Proofs.Steps

/-!
Finding the directory of an archive with one entry. Where the fields of its records stand follows
from their order, and a reader that looks at these places is led from the end of the archive to the
directory, by way of a large end record if there is one.
-/
namespace Stubwright.Archive

variable {bytes field front back : List UInt8} {start width value position : Nat}

def Stands (bytes : List UInt8) (start : Nat) (field : List UInt8) : Prop :=
  field <+: bytes.drop start

theorem stands_append : Stands bytes start (front ++ back) ↔
    Stands bytes start front ∧ Stands bytes (start + front.length) back := by
  constructor
  · rintro ⟨rest, whole⟩
    refine ⟨⟨back ++ rest, by rw [← whole, List.append_assoc]⟩, rest, ?_⟩
    rw [← List.drop_drop, ← whole, List.append_assoc, List.drop_left]
  · rintro ⟨⟨rest, whole⟩, rest', wholeBack⟩
    rw [← List.drop_drop, ← whole, List.drop_left] at wholeBack
    exact ⟨rest', by rw [← whole, ← wholeBack, List.append_assoc]⟩

theorem stands_self (bytes : List UInt8) : Stands bytes 0 bytes :=
  List.prefix_refl bytes

theorem Stands.bytesAt (stands : Stands bytes start field) :
    bytesAt bytes start field.length = .ok field := by
  rw [Archive.bytesAt]
  have taken : (bytes.drop start).take field.length = field :=
    (List.prefix_iff_eq_take.mp stands).symm
  rw [taken, if_pos rfl]

theorem Stands.markAt (stands : Stands bytes start field) (four : field.length = 4) :
    Archive.bytesAt bytes start 4 = .ok field :=
  four ▸ stands.bytesAt

theorem Stands.numberAt (stands : Stands bytes start (fieldOf width value))
    (small : value < Nat.pow 256 width) : numberAt bytes start width = .ok value := by
  have read := stands.bytesAt
  rw [length_fieldOf] at read
  rw [Archive.numberAt, read, Except.map, valueOf_fieldOf small]

theorem Stands.getElem? (stands : Stands bytes start field) (index : Nat)
    (inside : index < field.length) : bytes[start + index]? = field[index]? := by
  obtain ⟨rest, whole⟩ := stands
  rw [← List.getElem?_drop, ← whole, List.getElem?_append_left inside]

theorem bytesAt_zero (bytes : List UInt8) (start : Nat) : bytesAt bytes start 0 = .ok [] := by
  rw [Archive.bytesAt, List.take_zero]
  rfl

theorem lastEndRecord?_of_short (found : Option Nat) (short : bytes.length < endSize) :
    lastEndRecord? position found bytes = found := by
  induction bytes generalizing position found with
  | nil => rfl
  | cons byte rest ih =>
      have few : rest.length < endSize := Nat.lt_of_succ_lt short
      have nothing : rest.drop (endSize - 2) = [] := by
        rw [List.drop_eq_nil_iff]
        rw [List.length_cons] at short
        omega
      rw [lastEndRecord?, nothing]
      simpa using ih found few

theorem lastEndRecord?_append (front : List UInt8) (found : Option Nat)
    (mark : endMark <+: back) (length : back.length = endSize) :
    lastEndRecord? position found (front ++ back) = some (position + front.length) := by
  induction front generalizing position found with
  | nil =>
      obtain ⟨rest, rfl⟩ := mark
      have shape : endMark ++ rest = 0x50 :: ([0x4b, 0x05, 0x06] ++ rest) := rfl
      have long : ([0x4b, 0x05, 0x06] ++ rest : List UInt8).length = endSize - 1 := by
        rw [shape, List.length_cons] at length
        omega
      have more : ([0x4b, 0x05, 0x06] ++ rest : List UInt8).drop (endSize - 2) ≠ [] := by
        rw [ne_eq, List.drop_eq_nil_iff, long]
        decide
      have here : endMark.isPrefixOf (0x50 :: ([0x4b, 0x05, 0x06] ++ rest)) = true := by
        rw [List.isPrefixOf_iff_prefix, ← shape]
        exact List.prefix_append _ _
      rw [List.nil_append, shape, lastEndRecord?, here, bne_iff_ne.mpr more, Bool.and_self,
        if_pos rfl, lastEndRecord?_of_short]
      · rfl
      · rw [long]
        decide
  | cons byte front ih =>
      rw [List.cons_append, lastEndRecord?, ih, List.length_cons]
      congr 1
      omega

section Lengths

variable (deflater : Deflater) (name content : List UInt8) (directorySize directoryStart : Nat)

theorem length_description : (description deflater name content).length = 26 := by
  simp [description, length_fieldOf]

theorem length_localRecord : (localRecord deflater name content).length =
    30 + name.length + (deflater.deflate content).length := by
  simp [localRecord, length_description, localMark]
  omega

theorem length_directoryRecord :
    (directoryRecord deflater name content).length = 46 + name.length := by
  simp [directoryRecord, length_description, length_fieldOf, directoryMark]
  omega

theorem length_endRecordOf : (endRecordOf directorySize directoryStart).length = endSize := by
  simp [endRecordOf, length_fieldOf, endMark, endSize]

theorem length_largeEndRecordOf :
    (largeEndRecordOf directorySize directoryStart).length = largeEndSize := by
  simp [largeEndRecordOf, length_fieldOf, largeEndMark, largeEndSize]

theorem length_locatorOf : (locatorOf directorySize directoryStart).length = locatorSize := by
  simp [locatorOf, length_fieldOf, locatorMark, locatorSize]

end Lengths

/-- A number is written as it is or as the greatest one, so that it fits. -/
theorem min_fullNumber_lt (number : Nat) : min number fullNumber < Nat.pow 256 4 :=
  Nat.lt_of_le_of_lt (Nat.min_le_right _ _) (by decide)

theorem endRecord_of_stands {directorySize directoryStart : Nat}
    (found : lastEndRecord? 0 none bytes = some start) (ends : bytes.length = start + endSize)
    (stands : Stands bytes start (endRecordOf directorySize directoryStart)) :
    endRecord bytes =
      .ok { position := start, disk := 0, directoryDisk := 0, count := 1, total := 1,
            directorySize := min directorySize fullNumber
            directoryStart := min directoryStart fullNumber, commentSize := 0 } := by
  simp only [endRecordOf, List.append_assoc, stands_append, length_fieldOf, Nat.add_assoc,
    show endMark.length = 4 from rfl, Nat.reduceAdd] at stands
  obtain ⟨-, disk, directoryDisk, count, total, size, first, comment⟩ := stands
  have close : ¬ start + endSize + longestComment < bytes.length := by omega
  unfold endRecord
  rw [found]
  dsimp only
  rw [if_neg close, comment.numberAt (by decide), disk.numberAt (by decide),
    directoryDisk.numberAt (by decide), count.numberAt (by decide), total.numberAt (by decide),
    size.numberAt (min_fullNumber_lt _), first.numberAt (min_fullNumber_lt _)]
  simp only [ok_bind, bytesAt_zero]
  rfl

/-- Whether the end of a name reads like what leads to a large end record. -/
def SpellsLocator (name : List UInt8) : Prop :=
  20 ≤ name.length ∧ locatorMark <+: name.drop (name.length - 20)

theorem spellsLocator_of_stands {spelled : List UInt8} (written : Stands bytes (start + 20) spelled)
    (long : 20 ≤ spelled.length) (mark : Stands bytes (start + spelled.length) locatorMark) :
    SpellsLocator spelled := by
  obtain ⟨rest, whole⟩ := written
  have behind : start + spelled.length = start + 20 + (spelled.length - 20) := by omega
  rw [Stands, behind, ← List.drop_drop, ← whole, List.drop_append_of_le_length (by omega)] at mark
  refine ⟨long, List.prefix_of_prefix_length_le mark (List.prefix_append _ _) ?_⟩
  rw [List.length_drop, show locatorMark.length = 4 from rfl]
  omega

/-- The two bytes of so small a length meet a byte of the mark that they differ from. -/
theorem not_stands_locatorMark_over {count : Nat} (size : Stands bytes (start + 2) (fieldOf 2 count))
    (few : count < 4) : ¬ Stands bytes (start + count) locatorMark := by
  intro mark
  have marked (index : Nat) (among : index < 4) :
      bytes[start + count + index]? = locatorMark[index]? := mark.getElem? index among
  have sized (index : Nat) (among : index < 2) :
      bytes[start + 2 + index]? = (fieldOf 2 count)[index]? :=
    size.getElem? index (by rwa [length_fieldOf])
  have cases : count = 0 ∨ count = 1 ∨ count = 2 ∨ count = 3 := by omega
  rcases cases with rfl | rfl | rfl | rfl
  · exact absurd ((marked 2 (by decide)).symm.trans (sized 0 (by decide))) (by decide)
  · exact absurd ((marked 1 (by decide)).symm.trans (sized 0 (by decide))) (by decide)
  · exact absurd ((marked 0 (by decide)).symm.trans (sized 0 (by decide))) (by decide)
  · exact absurd ((marked 0 (by decide)).symm.trans (sized 1 (by decide))) (by decide)

section Ordinary

variable {deflater : Deflater} {spelled content : List UInt8}

/-- No locator stands where one is looked for, unless the name spells one: the name is behind its own
length and sixteen bytes that begin none. -/
theorem not_stands_locatorMark
    (stands : Stands bytes start (directoryRecord deflater spelled content))
    (ordinary : ¬ SpellsLocator spelled) :
    ¬ Stands bytes (start + 26 + spelled.length) locatorMark := by
  simp only [directoryRecord, description, List.append_assoc, stands_append, length_fieldOf,
    Nat.add_assoc, show directoryMark.length = 4 from rfl, Nat.reduceAdd] at stands
  obtain ⟨-, -, -, -, -, -, -, -, -, -, nameSize, extraSize, comment, disk, inside, outside, first,
    written⟩ := stands
  let between : List UInt8 := fieldOf 2 0 ++ (fieldOf 2 0 ++ (fieldOf 2 0 ++ (fieldOf 2 0 ++
    (fieldOf 4 (entryMode * 65536) ++ fieldOf 4 0))))
  have fixed : Stands bytes (start + 30) between := by
    simp only [between, stands_append, length_fieldOf, Nat.add_assoc, Nat.reduceAdd]
    exact ⟨extraSize, comment, disk, inside, outside, first⟩
  have other : ∀ index < 16, between[index]? ≠ locatorMark[0]? := by decide
  intro mark
  -- A long name would have to spell the mark. Below that the mark begins in the sixteen bytes in
  -- front of the name, or, with fewer than four bytes of name, in the two bytes of its length.
  by_cases long : 20 ≤ spelled.length
  · exact ordinary (spellsLocator_of_stands written long mark)
  by_cases few : spelled.length < 4
  · exact not_stands_locatorMark_over nameSize few mark
  · have among : spelled.length - 4 < 16 := by omega
    have byte := fixed.getElem? (spelled.length - 4) among
    have marked : bytes[start + 26 + spelled.length + 0]? = locatorMark[0]? :=
      mark.getElem? 0 (by decide)
    have same : start + 30 + (spelled.length - 4) = start + 26 + spelled.length + 0 := by omega
    rw [same, marked] at byte
    exact other _ among byte.symm

theorem locator?_of_stands {last : EndRecord}
    (stands : Stands bytes start (directoryRecord deflater spelled content))
    (ends : bytes.length = start + (directoryRecord deflater spelled content).length + endSize)
    (bare : last.commentSize = 0) (ordinary : ¬ SpellsLocator spelled) :
    locator? bytes last = .ok none := by
  rw [length_directoryRecord, endSize] at ends
  have long : ¬ bytes.length < locatorSize + endSize + last.commentSize := by
    rw [bare, locatorSize, endSize]
    omega
  have place : bytes.length - (locatorSize + endSize + last.commentSize) =
      start + 26 + spelled.length := by
    rw [bare, locatorSize, endSize]
    omega
  have four : ((bytes.drop (start + 26 + spelled.length)).take 4).length = 4 := by
    rw [List.length_take, List.length_drop]
    omega
  have other : (bytes.drop (start + 26 + spelled.length)).take 4 ≠ locatorMark := by
    intro same
    refine not_stands_locatorMark stands ordinary ?_
    rw [Stands, ← same]
    exact List.take_prefix _ _
  unfold locator?
  dsimp only
  rw [if_neg long, place, bytesAt, if_pos four, ok_bind, if_pos (by simpa using other)]
  rfl

/-- The end record leads back to the one directory record right in front of it. -/
theorem whereabouts_of_stands
    (found : lastEndRecord? 0 none bytes =
      some (start + (directoryRecord deflater spelled content).length))
    (ends : bytes.length = start + (directoryRecord deflater spelled content).length + endSize)
    (directoryStands : Stands bytes start (directoryRecord deflater spelled content))
    (lastStands : Stands bytes (start + (directoryRecord deflater spelled content).length)
      (endRecordOf (directoryRecord deflater spelled content).length start))
    (near : max (directoryRecord deflater spelled content).length start ≤ fullNumber)
    (ordinary : ¬ SpellsLocator spelled) : whereabouts bytes = .ok ⟨start, 0, 1⟩ := by
  obtain ⟨sizeFits, startFits⟩ := Nat.max_le.mp near
  have record := endRecord_of_stands found ends lastStands
  rw [Nat.min_eq_left sizeFits, Nat.min_eq_left startFits] at record
  have bare := fun last none => @locator?_of_stands _ _ _ _ _ last directoryStands ends none ordinary
  unfold whereabouts
  rw [record]
  simp only [ok_bind]
  rw [if_neg (by simp), bare _ rfl]
  simp only [ok_bind]
  have apart : start + (directoryRecord deflater spelled content).length -
      ((directoryRecord deflater spelled content).length + start) = 0 := by
    omega
  rw [if_neg (by simp [Nat.add_comm]), apart]
  rfl

end Ordinary

section Large

variable {directorySize directoryStart : Nat}

theorem locator?_of_locatorOf {last : EndRecord}
    (stands : Stands bytes start (locatorOf directorySize directoryStart))
    (ends : bytes.length = start + locatorSize + endSize) (bare : last.commentSize = 0)
    (near : directoryStart + directorySize < Nat.pow 256 8) :
    locator? bytes last = .ok (some ⟨0, directoryStart + directorySize⟩) := by
  simp only [locatorOf, List.append_assoc, stands_append, length_fieldOf, Nat.add_assoc,
    show locatorMark.length = 4 from rfl, Nat.reduceAdd] at stands
  obtain ⟨mark, disk, first, -⟩ := stands
  have long : ¬ bytes.length < locatorSize + endSize + last.commentSize := by omega
  have place : bytes.length - (locatorSize + endSize + last.commentSize) = start := by omega
  unfold locator?
  dsimp only
  rw [if_neg long, place, mark.markAt rfl, ok_bind, if_neg (by simp), disk.numberAt (by decide),
    first.numberAt near]
  rfl

theorem largeEndFrom?_of_stands {bound : Nat} (inside : start ≤ bound)
    (stands : Stands bytes start largeEndMark) :
    largeEndFrom? bound start (bytes.drop start) = some start := by
  obtain ⟨rest, whole⟩ := stands
  rw [← whole]
  have shape : largeEndMark ++ rest = 0x50 :: ([0x4b, 0x06, 0x06] ++ rest) := rfl
  have here : largeEndMark.isPrefixOf (0x50 :: ([0x4b, 0x06, 0x06] ++ rest)) = true := by
    rw [List.isPrefixOf_iff_prefix, ← shape]
    exact List.prefix_append _ _
  rw [shape, largeEndFrom?, if_neg (Nat.not_lt.mpr inside), if_pos here]

/-- The large end record leads to a directory that begins too far behind for the other one. -/
theorem whereabouts_of_large
    (found : lastEndRecord? 0 none bytes = some (start + largeEndSize + locatorSize))
    (ends : bytes.length = start + largeEndSize + locatorSize + endSize)
    (place : start = directoryStart + directorySize)
    (largeStands : Stands bytes start (largeEndRecordOf directorySize directoryStart))
    (locatorStands : Stands bytes (start + largeEndSize) (locatorOf directorySize directoryStart))
    (lastStands : Stands bytes (start + largeEndSize + locatorSize)
      (endRecordOf directorySize directoryStart))
    (near : start < placeLimit) : whereabouts bytes = .ok ⟨directoryStart, 0, 1⟩ := by
  have record := endRecord_of_stands found ends lastStands
  have wide : placeLimit < Nat.pow 256 8 := by decide
  have led := fun last none =>
    @locator?_of_locatorOf _ _ _ _ last locatorStands ends none (by omega)
  simp only [largeEndRecordOf, List.append_assoc, stands_append, length_fieldOf, Nat.add_assoc,
    show largeEndMark.length = 4 from rfl, Nat.reduceAdd] at largeStands
  obtain ⟨mark, -, -, -, disk, directoryDisk, -, count, -, first⟩ := largeStands
  have inside : start ≤ start + largeEndSize + locatorSize - (largeEndSize + 4) := by
    simp only [largeEndSize, locatorSize]
    omega
  have there := largeEndFrom?_of_stands inside mark
  have enough : ¬ start + largeEndSize + locatorSize < largeEndSize + 4 := by
    simp only [largeEndSize, locatorSize]
    omega
  unfold whereabouts
  rw [record]
  simp only [ok_bind]
  rw [if_neg (by simp), led _ rfl]
  simp only [ok_bind]
  unfold largeWhereabouts
  dsimp only
  rw [if_neg (by simp), if_neg enough, ← place, there]
  dsimp only
  rw [disk.numberAt (by decide), directoryDisk.numberAt (by decide), first.numberAt (by omega),
    count.numberAt (by decide)]
  simp only [ok_bind, Nat.sub_self, Nat.add_zero]
  rw [if_neg (by simp), if_neg (by omega)]
  rfl

end Large

end Stubwright.Archive
