import Stubwright.Proofs.ClassFile.Descriptor
import Stubwright.Proofs.Text.Utf8
import Stubwright.Text.Octets

/-!
Method descriptors scanned byte by byte. The scan looks at single bytes of UTF-8, cuts names out at
the byte of a semicolon and decodes them afterwards, and goes on until it meets the byte of a
closing parenthesis. It comes to an end on every text, finds no name that it cannot decode, and
gives what `methodTypes` gives for the characters.
-/
namespace Stubwright.ClassFile

open Text

inductive ScanFault where
  | descriptor (fault : DescriptorFault)
  /-- The bytes of a name are no text. -/
  | badName
deriving DecidableEq, Repr

abbrev Scanned (α : Type) := Except ScanFault (α × List UInt8)

def scanSingle : List UInt8 → Scanned JavaType
  | [] => .error (.descriptor .truncated)
  | byte :: rest =>
      if Char.ofNat byte.toNat = 'L' then
        match rest.dropWhile (· ≠ 0x3b) with
        | [] => .error (.descriptor .unterminatedReference)
        | _ :: after =>
            match Utf8.decode? (rest.takeWhile (· ≠ 0x3b)) with
            | none => .error .badName
            | some name => .ok (.reference (binaryNameOf name), after)
      else
        match primitiveOfTag? (Char.ofNat byte.toNat) with
        | some kind => .ok (.primitive kind, rest)
        | none => .error (.descriptor (.unexpectedTag (Char.ofNat byte.toNat)))

/-- Counts the brackets first and puts all dimensions on the element at once. -/
def scanType (bytes : List UInt8) : Scanned JavaType :=
  match scanSingle (bytes.dropWhile (· = 0x5b)) with
  | .error fault => .error fault
  | .ok (element, after) => .ok (element.arrayOf (bytes.takeWhile (· = 0x5b)).length, after)

/-- Nothing if the closing parenthesis has not come after as many types. -/
def scanParameters : Nat → List UInt8 → Option (Scanned (List JavaType))
  | _, [] => some (.error (.descriptor .truncated))
  | rounds, byte :: rest =>
      if byte = 0x29 then some (.ok ([], rest))
      else
        match rounds with
        | 0 => none
        | rounds + 1 =>
            match scanType (byte :: rest) with
            | .error fault => some (.error fault)
            | .ok (type, after) =>
                (scanParameters rounds after).map fun
                  | .error fault => .error fault
                  | .ok (types, after) => .ok (type :: types, after)

def scanReturnType : List UInt8 → Scanned JavaType
  | [] => .error (.descriptor .truncated)
  | byte :: rest => if byte = 0x56 then .ok (.void, rest) else scanType (byte :: rest)

def scanResult (descriptor : String) :
    List JavaType × List UInt8 → Except ScanFault (List JavaType × JavaType)
  | (parameters, bytes) =>
      match scanReturnType bytes with
      | .error fault => .error fault
      | .ok (returnType, []) => .ok (parameters, returnType)
      | .ok (_, _ :: _) => .error (.descriptor (.surplus descriptor))

def scanMethod (rounds : Nat) (descriptor : String) :
    Option (Except ScanFault (List JavaType × JavaType)) :=
  match Utf8.encodeString descriptor with
  | [] => some (.error (.descriptor .truncated))
  | byte :: rest =>
      if byte = 0x28 then (scanParameters rounds rest).map (·.bind (scanResult descriptor))
      else some (.error (.descriptor .missingOpening))

def encoded : Except DescriptorFault (α × List Char) → Scanned α
  | .error fault => .error (.descriptor fault)
  | .ok (value, rest) => .ok (value, Utf8.encode rest)

theorem primitiveOfTag?_of_large {tag : Char} (large : 0x80 ≤ tag.toNat) :
    primitiveOfTag? tag = none := by
  cases found : primitiveOfTag? tag with
  | none => rfl
  | some kind =>
      have small : (tagOf kind).toNat < 0x80 := by cases kind <;> decide
      rw [← tagOf_of_primitiveOfTag? found] at small
      omega

theorem cut_at_semicolon (text : List Char) :
    (Utf8.encode text).takeWhile (· ≠ 0x3b) = Utf8.encode (text.takeWhile (· ≠ ';')) ∧
      (Utf8.encode text).dropWhile (· ≠ 0x3b) = Utf8.encode (text.dropWhile (· ≠ ';')) := by
  have agree (c : Char) (byte : UInt8) (member : byte ∈ String.utf8EncodeChar c) :
      decide (byte ≠ 0x3b) = decide (c ≠ ';') := by
    have same : byte = 0x3b ↔ c = ';' := Utf8.eq_ascii_iff ';' (by decide) member
    exact decide_eq_decide.mpr (not_congr same)
  exact ⟨Utf8.takeWhile_encode agree text, Utf8.dropWhile_encode agree text⟩

theorem scanSingle_encode {c : Char} (single : c ≠ '[') (rest : List Char) :
    scanSingle (Utf8.encode (c :: rest)) = encoded (typeAt (c :: rest)) := by
  rw [Utf8.encode_cons]
  by_cases ascii : c.toNat < 0x80
  · obtain ⟨byte, spelled, same⟩ := Utf8.encodeChar_one ascii
    have shown : shownTag c = c := by
      rw [shownTag, spelled]
      exact Utf8.ofNat_eq same
    rw [spelled, List.singleton_append, scanSingle, typeAt, same, Char.ofNat_toNat, if_neg single]
    by_cases named : c = 'L'
    · rw [if_pos named, if_pos named, (cut_at_semicolon rest).1, (cut_at_semicolon rest).2]
      cases dropped : rest.dropWhile (· ≠ ';') with
      | nil => rfl
      | cons stop after =>
          rw [eq_of_dropWhile_ne dropped, Utf8.decode?_encode]
          rfl
    · rw [if_neg named, if_neg named, shown]
      cases primitiveOfTag? c <;> rfl
  -- The first byte of a longer character is no tag either, and faults name the byte.
  · have large := Nat.le_of_not_lt ascii
    obtain ⟨lead, tail, spelled, -⟩ := Utf8.front_encodeChar c []
    have leadLarge : 0x80 ≤ (Char.ofNat lead.toNat).toNat := by
      rw [Octets.toNat_ofNat_byte]
      exact Utf8.le_of_mem_encodeChar large (by simp [spelled])
    have shown : shownTag c = Char.ofNat lead.toNat := by
      rw [shownTag, spelled]
    have noName {tag : Char} (high : 0x80 ≤ tag.toNat) : tag ≠ 'L' := by
      rintro rfl
      contradiction
    rw [spelled, List.cons_append, scanSingle, typeAt, if_neg single, if_neg (noName large),
      if_neg (noName leadLarge), primitiveOfTag?_of_large large,
      primitiveOfTag?_of_large leadLarge, shown]
    rfl

/-- Brackets counted first and dimensions put on one at a time come to the same. -/
theorem scanType_bracket (bytes : List UInt8) :
    scanType (0x5b :: bytes) =
      (scanType bytes).map fun (element, after) => (element.arrayOf 1, after) := by
  rw [scanType, scanType, List.dropWhile_cons_of_pos rfl, List.takeWhile_cons_of_pos rfl]
  cases scanSingle (bytes.dropWhile (· = 0x5b)) with
  | error fault => rfl
  | ok result => simp [Except.map, JavaType.arrayOf_arrayOf]

theorem scanType_single {lead : UInt8} (single : lead ≠ 0x5b) (tail : List UInt8) :
    scanType (lead :: tail) = scanSingle (lead :: tail) := by
  rw [scanType, List.dropWhile_cons_of_neg (by simpa using single),
    List.takeWhile_cons_of_neg (by simpa using single)]
  cases scanSingle (lead :: tail) <;> rfl

theorem scanType_encode (text : List Char) :
    scanType (Utf8.encode text) = encoded (typeAt text) := by
  induction text with
  | nil => rfl
  | cons c rest ih =>
      by_cases bracket : c = '['
      · have front : Utf8.encode (c :: rest) = 0x5b :: Utf8.encode rest := by rw [bracket]; rfl
        rw [front, scanType_bracket, ih, typeAt, if_pos bracket]
        cases typeAt rest <;> rfl
      · obtain ⟨lead, tail, spelled, single⟩ :=
          Utf8.exists_lead_ne '[' 0x5b (by decide) bracket rest
        rw [spelled, scanType_single single, ← spelled, scanSingle_encode bracket]

theorem parametersAt_of_typeAt_error {text : List Char} {fault : DescriptorFault}
    (failed : typeAt text = .error fault) (inside : text.head? ≠ some ')') :
    parametersAt text = .error fault := by
  cases text with
  | nil =>
      cases failed
      rw [parametersAt]
  | cons c rest =>
      have notClosing : c ≠ ')' := by simpa using inside
      rw [parametersAt, if_neg notClosing]
      split
      · rename_i fault' failed'
        rw [failed] at failed'
        cases failed'
        rfl
      · rename_i found
        rw [failed] at found
        cases found

theorem scanParameters_encode {rounds : Nat} {text : List Char} (enough : text.length ≤ rounds) :
    scanParameters rounds (Utf8.encode text) = some (encoded (parametersAt text)) := by
  induction rounds generalizing text with
  | zero =>
      rw [List.eq_nil_of_length_eq_zero (Nat.le_zero.mp enough), parametersAt]
      rfl
  | succ rounds ih =>
      cases text with
      | nil => rw [parametersAt]; rfl
      | cons c rest =>
          by_cases closing : c = ')'
          · rw [parametersAt, if_pos closing, closing]
            rfl
          · obtain ⟨lead, tail, spelled, other⟩ :=
              Utf8.exists_lead_ne ')' 0x29 (by decide) closing rest
            have scanned := scanType_encode (c :: rest)
            rw [spelled] at scanned ⊢
            rw [scanParameters, if_neg other, scanned]
            cases found : typeAt (c :: rest) with
            | error fault =>
                rw [parametersAt_of_typeAt_error found (by simpa using closing)]
                rfl
            | ok result =>
                obtain ⟨type, after⟩ := result
                -- A round takes at least a character off, so the characters bound the rounds.
                have shorter := typeAt_shorter found
                have fewer : after.length ≤ rounds := by
                  rw [List.length_cons] at shorter enough
                  omega
                rw [parametersAt_of_typeAt found]
                simp only [encoded, ih fewer, Option.map_some]
                cases parametersAt after <;> rfl

theorem scanReturnType_encode (text : List Char) :
    scanReturnType (Utf8.encode text) = encoded (returnTypeAt text) := by
  cases text with
  | nil => rfl
  | cons c rest =>
      by_cases nothing : c = 'V'
      · rw [nothing]
        rfl
      · obtain ⟨lead, tail, spelled, other⟩ := Utf8.exists_lead_ne 'V' 0x56 (by decide) nothing rest
        rw [spelled, scanReturnType, if_neg other, ← spelled, scanType_encode, returnTypeAt]
        rintro _ ⟨⟩
        contradiction

theorem scanResult_encode (descriptor : String) (parameters : List JavaType) (text : List Char) :
    scanResult descriptor (parameters, Utf8.encode text) =
      ((returnTypeAt text).bind fun (returnType, rest) =>
        if rest.isEmpty then .ok (parameters, returnType)
        else .error (.surplus descriptor)).mapError .descriptor := by
  rw [scanResult, scanReturnType_encode]
  cases returnTypeAt text with
  | error fault => rfl
  | ok result =>
      obtain ⟨returnType, rest⟩ := result
      cases rest with
      | nil => rfl
      | cons c surplus =>
          obtain ⟨lead, tail, spelled, -⟩ := Utf8.exists_lead c surplus
          rw [encoded, spelled]
          rfl

theorem scanMethod_eq {rounds : Nat} {descriptor : String} (enough : descriptor.length ≤ rounds) :
    scanMethod rounds descriptor =
      some ((methodTypes descriptor.toList).mapError .descriptor) := by
  rw [← String.length_toList] at enough
  rw [scanMethod, Utf8.encodeString]
  cases text : descriptor.toList with
  | nil => rfl
  | cons c rest =>
      rw [text, List.length_cons] at enough
      have fewer : rest.length ≤ rounds := by omega
      by_cases opening : c = '('
      · have front : Utf8.encode (c :: rest) = 0x28 :: Utf8.encode rest := by rw [opening]; rfl
        rw [front, methodTypes, if_pos opening, ← text, String.ofList_toList]
        simp only [if_true, scanParameters_encode fewer, Option.map_some, Option.some.injEq]
        cases parametersAt rest with
        | error fault => rfl
        | ok result =>
            obtain ⟨parameters, middle⟩ := result
            exact scanResult_encode descriptor parameters middle
      · obtain ⟨lead, tail, spelled, other⟩ := Utf8.exists_lead_ne '(' 0x28 (by decide) opening rest
        rw [spelled, methodTypes, if_neg opening]
        exact if_neg other

/-- Descriptors are read exactly, and the scan of their bytes always comes to the same end. -/
theorem methodTypes_exact (descriptor : String) :
    (∀ parameters returnType,
      methodTypes descriptor.toList = .ok (parameters, returnType) ↔
        SpellsMethod descriptor.toList parameters returnType) ∧
    ((∃ fault, methodTypes descriptor.toList = .error fault) ↔
      ¬ ∃ parameters returnType, SpellsMethod descriptor.toList parameters returnType) ∧
    ∀ more,
      scanMethod (descriptor.length + more) descriptor =
        some ((methodTypes descriptor.toList).mapError .descriptor) ∧
      scanMethod (descriptor.length + more) descriptor ≠ some (.error .badName) := by
  refine ⟨fun _ _ => methodTypes_eq_ok_iff, ?_, fun more => ?_⟩
  · simp only [← methodTypes_eq_ok_iff]
    cases methodTypes descriptor.toList with
    | error fault => simp
    | ok types => simp [Prod.ext_iff]
  · have same := scanMethod_eq (Nat.le_add_right descriptor.length more)
    refine ⟨same, ?_⟩
    rw [same]
    cases methodTypes descriptor.toList with
    | error fault => simp [Except.mapError]
    | ok types => simp [Except.mapError]

end Stubwright.ClassFile
