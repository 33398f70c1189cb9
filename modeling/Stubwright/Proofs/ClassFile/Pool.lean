import Stubwright.ClassFile.Pool
import Stubwright.Proofs.ClassFile.Image
import Stubwright.Proofs.Text.ModifiedUtf8

namespace Stubwright.ClassFile

open Text

def Entry.constants : Entry → List Constant
  | text units => [.text (String.ofList (Utf16.text units))]
  | classReference nameIndex => [.classReference nameIndex.toNat]
  | filler kind _ => if kind.slots = 2 then [.other, .unusable] else [.other]

theorem Filler.slots_cases (kind : Filler) : kind.slots = 1 ∨ kind.slots = 2 := by
  cases kind <;> decide

theorem Entry.length_constants (entry : Entry) : entry.constants.length = entry.slots := by
  cases entry with
  | text _ | classReference _ => rfl
  | filler kind _ =>
      rcases kind.slots_cases with single | double
      · simp [constants, slots, single]
      · simp [constants, slots, double]

theorem Entry.slots_cases (entry : Entry) : entry.slots = 1 ∨ entry.slots = 2 := by
  cases entry with
  | text _ | classReference _ => exact .inl rfl
  | filler kind _ => exact kind.slots_cases

def poolOf (entries : List Entry) : Pool :=
  ⟨entries.flatMap Entry.constants⟩

theorem reads_filler {width : Nat} (payload : Vector UInt8 width) (kept : List Constant) :
    Reads (do Reader.skip width; pure kept) payload.toList kept := by
  have skipped := reads_skip payload.toList
  rw [Vector.length_toList] at skipped
  exact skipped.bind_end (.pure kept)

theorem reads_entry {entry : Entry} (fits : entry.Fits) (paired : entry.IsPaired) :
    Reads Pool.readConstant entry.encode entry.constants := by
  cases entry with
  | text units =>
      have decoded : ModifiedUtf8.decode? (ModifiedUtf8.encode units) = some (Utf16.text units) :=
        (ModifiedUtf8.decode?_encode units).trans (if_pos paired)
      refine (reads_u1 1).bind (Reads.bind (reads_count fits) ((reads_slice _).bind_end ?_))
      rw [decoded]
      exact .pure _
  | classReference nameIndex => exact (reads_u1 7).bind ((reads_u2 nameIndex).bind_end (.pure _))
  | filler kind payload =>
      refine (reads_u1 kind.tag).bind ?_
      cases kind <;> exact reads_filler payload _

theorem slots_of_not_isPaired {entry : Entry} (alone : ¬entry.IsPaired) : entry.slots = 1 := by
  cases entry with
  | text _ => rfl
  | classReference _ | filler _ _ => exact absurd trivial alone

/-- A text is refused as a whole if one of its surrogates has no partner. -/
theorem fails_entry {entry : Entry} (fits : entry.Fits) (alone : ¬entry.IsPaired) :
    Fails Pool.readConstant entry.encode .badText := by
  cases entry with
  | text units =>
      have refused : ModifiedUtf8.decode? (ModifiedUtf8.encode units) = none :=
        (ModifiedUtf8.decode?_encode units).trans (if_neg alone)
      refine (reads_u1 1).bind_fails ((reads_count fits).bind_fails
        ((reads_slice _).bind_end_fails ?_))
      rw [refused]
      exact .fail _
  | classReference _ | filler _ _ => exact absurd trivial alone

/-- A constant with two indexes may come last, so one index left is no reason to read only one. -/
theorem reads_constants_step {bytes more : List UInt8} {constants others : List Constant}
    {count : Nat} (size : constants.length = 1 ∨ constants.length = 2)
    (first : Reads Pool.readConstant bytes constants)
    (rest : Reads (Pool.readConstants count) more others) :
    Reads (Pool.readConstants (constants.length + count)) (bytes ++ more)
      (constants ++ others) := by
  rcases size with single | double
  · rw [single, Nat.add_comm]
    cases count with
    | zero =>
        -- Here the reader does not go on, so nothing may be missing from what it has.
        have nothing := rest []
        simp only [Pool.readConstants, StateT.run_pure, List.append_nil] at nothing
        cases nothing
        rw [List.append_nil, List.append_nil]
        exact first
    | succ count =>
        refine first.bind ?_
        rw [if_neg (by omega)]
        exact rest.bind_end (.pure _)
  · rw [double, Nat.add_comm]
    refine first.bind ?_
    rw [if_pos double]
    exact rest.bind_end (.pure _)

theorem reads_entries {entries : List Entry} (fits : ∀ entry ∈ entries, entry.Fits)
    (paired : ∀ entry ∈ entries, entry.IsPaired) :
    Reads (Pool.readConstants (slotCount entries)) (entries.flatMap Entry.encode)
      (entries.flatMap Entry.constants) := by
  induction entries with
  | nil => exact .pure []
  | cons entry others ih =>
      have size : entry.constants.length = 1 ∨ entry.constants.length = 2 := by
        rw [entry.length_constants]
        exact entry.slots_cases
      have first := reads_entry (fits entry List.mem_cons_self) (paired entry List.mem_cons_self)
      have rest := ih (fun other member => fits other (List.mem_cons_of_mem entry member))
        fun other member => paired other (List.mem_cons_of_mem entry member)
      have count : slotCount (entry :: others) = entry.constants.length + slotCount others := by
        rw [entry.length_constants, slotCount]
      rw [count, List.flatMap_cons, List.flatMap_cons]
      exact reads_constants_step size first rest

theorem fails_constants_step {bytes more : List UInt8} {constants : List Constant} {count : Nat}
    {fault : Fault} (size : constants.length = 1 ∨ constants.length = 2)
    (first : Reads Pool.readConstant bytes constants)
    (rest : Fails (Pool.readConstants count) more fault) :
    Fails (Pool.readConstants (constants.length + count)) (bytes ++ more) fault := by
  rcases size with single | double
  · rw [single, Nat.add_comm]
    cases count with
    | zero => exact absurd (rest []) nofun
    | succ count =>
        refine first.bind_fails ?_
        rw [if_neg (by omega)]
        exact rest.bind
  · rw [double, Nat.add_comm]
    refine first.bind_fails ?_
    rw [if_pos double]
    exact rest.bind

/-- The reader stops at the first text that it refuses. -/
theorem fails_entries {entries : List Entry} (fits : ∀ entry ∈ entries, entry.Fits)
    (alone : ¬∀ entry ∈ entries, entry.IsPaired) :
    Fails (Pool.readConstants (slotCount entries)) (entries.flatMap Entry.encode) .badText := by
  induction entries with
  | nil => exact absurd nofun alone
  | cons entry others ih =>
      rw [List.forall_mem_cons] at fits alone
      rw [List.flatMap_cons]
      by_cases paired : entry.IsPaired
      · have size : entry.constants.length = 1 ∨ entry.constants.length = 2 := by
          rw [entry.length_constants]
          exact entry.slots_cases
        have first := reads_entry fits.1 paired
        have rest := ih fits.2 fun others => alone ⟨paired, others⟩
        have count : slotCount (entry :: others) = entry.constants.length + slotCount others := by
          rw [entry.length_constants, slotCount]
        rw [count]
        exact fails_constants_step size first rest
      · have first := fails_entry fits.1 paired
        have single : slotCount (entry :: others) = slotCount others + 1 := by
          rw [slotCount, slots_of_not_isPaired paired, Nat.add_comm]
        rw [single]
        cases slotCount others with
        | zero => exact first.append _
        | succ count => exact first.bind.append _

theorem reads_pool {entries : List Entry} (slots : slotCount entries + 1 < 65536)
    (fits : ∀ entry ∈ entries, entry.Fits) (paired : ∀ entry ∈ entries, entry.IsPaired) :
    Reads Pool.read (encodePool entries) (poolOf entries) :=
  (reads_count slots).bind ((reads_entries fits paired).bind_end (.pure _))

theorem fails_pool {entries : List Entry} (slots : slotCount entries + 1 < 65536)
    (fits : ∀ entry ∈ entries, entry.Fits) (alone : ¬∀ entry ∈ entries, entry.IsPaired) :
    Fails Pool.read (encodePool entries) .badText :=
  (reads_count slots).bind_fails (fails_entries fits alone).bind

theorem getElem?_of_entryFrom? {entries : List Entry} {offset : Nat} {entry : Entry}
    (found : entryFrom? entries offset = some entry) :
    (entries.flatMap Entry.constants)[offset]? = entry.constants.head? := by
  induction entries generalizing offset with
  | nil => simp [entryFrom?] at found
  | cons first others ih =>
      have size := first.length_constants
      have positive : 0 < first.slots := by
        rcases first.slots_cases with single | double <;> omega
      rw [List.flatMap_cons]
      cases offset with
      | zero =>
          cases found
          rw [List.getElem?_append_left (by omega), List.head?_eq_getElem?]
      | succ offset =>
          simp only [entryFrom?] at found
          split at found
          · cases found
          · rw [List.getElem?_append_right (by omega), size]
            exact ih found

theorem constant?_of_entryAt? {entries : List Entry} {index : UInt16} {entry : Entry}
    (found : entryAt? entries index = some entry) :
    (poolOf entries).constant? index.toNat = entry.constants.head? := by
  unfold entryAt? at found
  cases place : index.toNat with
  | zero =>
      rw [place] at found
      cases found
  | succ offset =>
      rw [place] at found
      exact getElem?_of_entryFrom? found

theorem text_of_textAt? {entries : List Entry} {index : UInt16} {value : String}
    (found : textAt? entries index = some value) :
    (poolOf entries).text index.toNat = .ok value := by
  unfold textAt? at found
  split at found
  · rename_i text there
    cases found
    have constant := constant?_of_entryAt? there
    rw [Pool.text, constant]
    rfl
  · cases found

theorem className_of_classAt? {entries : List Entry} {index : UInt16} {name : String}
    (found : classAt? entries index = some name) :
    (poolOf entries).className index.toNat = .ok name := by
  unfold classAt? at found
  split at found
  · rename_i nameIndex there
    have constant := constant?_of_entryAt? there
    rw [Pool.className, constant]
    exact text_of_textAt? found
  · cases found

theorem binaryName_of_isClass {entries : List Entry} {reference : Reference}
    (named : reference.IsClass entries) :
    (poolOf entries).binaryName reference.index.toNat = .ok reference.binaryName := by
  have name := className_of_classAt? named
  rw [Pool.binaryName, name]
  rfl

/-- Only an index above zero leads to a class. -/
theorem index_pos_of_isClass {entries : List Entry} {reference : Reference}
    (named : reference.IsClass entries) : reference.index.toNat ≠ 0 := by
  intro zero
  simp [Reference.IsClass, classAt?, entryAt?, zero] at named

end Stubwright.ClassFile
