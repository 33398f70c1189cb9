import Stubwright.ClassFile.Reader

/-!
What a reader takes off the front of its input. `Reads` holds whatever follows, so that readers of
neighbouring fields compose; `bigEndian` is the writer that the number readers undo.
-/
namespace Stubwright.ClassFile

/-- The lowest bytes of a number, the most significant first. -/
def bigEndian : Nat → Nat → List UInt8
  | 0, _ => []
  | width + 1, n => bigEndian width (n / 256) ++ [UInt8.ofNat n]

theorem length_bigEndian (width n : Nat) : (bigEndian width n).length = width := by
  induction width generalizing n with
  | zero => rfl
  | succ width ih => simp [bigEndian, ih]

theorem number_bigEndian (width n : Nat) :
    Reader.number (bigEndian width n) = n % Nat.pow 256 width := by
  induction width generalizing n with
  | zero =>
      have nothing : n % Nat.pow 256 0 = 0 := Nat.mod_one n
      rw [nothing]
      rfl
  | succ width ih =>
      have upper := ih (n / 256)
      have power : Nat.pow 256 (width + 1) = 256 * Nat.pow 256 width := Nat.mul_comm _ _
      have split : n % Nat.pow 256 (width + 1) = n % 256 + 256 * (n / 256 % Nat.pow 256 width) := by
        rw [power, Nat.mod_mul]
      unfold Reader.number at upper ⊢
      rw [bigEndian, List.foldl_append, upper, split]
      simp only [List.foldl_cons, List.foldl_nil, UInt8.toNat_ofNat']
      omega

example : bigEndian 4 0xcafebabe = [0xca, 0xfe, 0xba, 0xbe] := by decide

def counted (encode : α → List UInt8) (items : List α) : List UInt8 :=
  bigEndian 2 items.length ++ items.flatMap encode

def sized (width : Nat) (body : List UInt8) : List UInt8 :=
  bigEndian width body.length ++ body

/-- The reader takes exactly these bytes off its input and gives this value for them. -/
def Reads (reader : Reader α) (bytes : List UInt8) (value : α) : Prop :=
  ∀ rest, reader.run (bytes ++ rest) = .ok (value, rest)

namespace Reads

variable {reader : Reader α} {next : α → Reader β} {bytes more : List UInt8} {value : α}
  {result : β}

theorem pure (value : α) : Reads (Pure.pure value) [] value := by
  intro rest
  rfl

theorem bind (first : Reads reader bytes value) (second : Reads (next value) more result) :
    Reads (reader >>= next) (bytes ++ more) result := by
  intro rest
  rw [StateT.run_bind, List.append_assoc, first]
  exact second rest

theorem bind_end (first : Reads reader bytes value) (second : Reads (next value) [] result) :
    Reads (reader >>= next) bytes result := by
  have both := first.bind second
  rwa [List.append_nil] at both

theorem start_bind (first : Reads reader [] value) (second : Reads (next value) more result) :
    Reads (reader >>= next) more result :=
  first.bind second

theorem map (f : α → β) (read : Reads reader bytes value) :
    Reads (f <$> reader) bytes (f value) := by
  intro rest
  rw [StateT.run_map, read]
  rfl

theorem lift {outcome : Except Fault α} (succeeds : outcome = .ok value) :
    Reads (liftM outcome) [] value := by
  intro rest
  rw [succeeds]
  rfl

theorem value_bind (first : Reads reader bytes value) (more : List UInt8) :
    (reader >>= next).value (bytes ++ more) = (next value).value more := by
  rw [Reader.value, StateT.run_bind, first]
  rfl

theorem start_value_bind (first : Reads reader [] value) (more : List UInt8) :
    (reader >>= next).value more = (next value).value more :=
  first.value_bind more

theorem value_eq (read : Reads reader bytes value) : reader.value bytes = .ok value := by
  have whole := read []
  rw [List.append_nil] at whole
  rw [Reader.value, whole]
  rfl

end Reads

/-- The reader fails on an input that starts with these bytes. -/
def Fails (reader : Reader α) (bytes : List UInt8) (fault : Fault) : Prop :=
  ∀ rest, reader.run (bytes ++ rest) = .error fault

section

variable {reader : Reader α} {next : α → Reader β} {bytes more : List UInt8} {value : α}
  {fault : Fault}

theorem Fails.fail (fault : Fault) : Fails (Reader.fail fault : Reader α) [] fault := by
  intro rest
  rfl

theorem Fails.append (failed : Fails reader bytes fault) (more : List UInt8) :
    Fails reader (bytes ++ more) fault := by
  intro rest
  rw [List.append_assoc]
  exact failed (more ++ rest)

theorem Fails.bind (first : Fails reader bytes fault) : Fails (reader >>= next) bytes fault := by
  intro rest
  rw [StateT.run_bind, first]
  rfl

theorem Reads.bind_fails (first : Reads reader bytes value)
    (second : Fails (next value) more fault) : Fails (reader >>= next) (bytes ++ more) fault := by
  intro rest
  rw [StateT.run_bind, List.append_assoc, first]
  exact second rest

theorem Reads.bind_end_fails (first : Reads reader bytes value)
    (second : Fails (next value) [] fault) : Fails (reader >>= next) bytes fault := by
  have both := first.bind_fails second
  rwa [List.append_nil] at both

theorem Fails.value_eq (failed : Fails reader bytes fault) : reader.value bytes = .error fault := by
  have whole := failed []
  rw [List.append_nil] at whole
  rw [Reader.value, whole]
  rfl

end

theorem reads_slice (body : List UInt8) : Reads (Reader.slice body.length) body body := by
  intro rest
  have split := Reader.splitFront?_append body rest
  simp only [StateT.run, Reader.slice, split]

theorem reads_skip (body : List UInt8) : Reads (Reader.skip body.length) body () :=
  (reads_slice body).bind_end (.pure ())

theorem reads_number (width n : Nat) (fits : n < Nat.pow 256 width) :
    Reads (Reader.number <$> Reader.slice width) (bigEndian width n) n := by
  have read := (reads_slice (bigEndian width n)).map Reader.number
  rwa [length_bigEndian, number_bigEndian, Nat.mod_eq_of_lt fits] at read

theorem reads_u1 (n : UInt8) : Reads Reader.u1 [n] n.toNat := by
  have read := reads_number 1 n.toNat n.toNat_lt
  rwa [bigEndian, bigEndian, List.nil_append, UInt8.ofNat_toNat] at read

theorem reads_count {n : Nat} (fits : n < 65536) : Reads Reader.u2 (bigEndian 2 n) n :=
  reads_number 2 n fits

theorem reads_u2 (n : UInt16) : Reads Reader.u2 (bigEndian 2 n.toNat) n.toNat :=
  reads_count n.toNat_lt

theorem reads_u4 {n : Nat} (fits : n < 4294967296) : Reads Reader.u4 (bigEndian 4 n) n :=
  reads_number 4 n fits

theorem reads_times {reader : Reader β} {encode : α → List UInt8} {meaning : α → β}
    {items : List α} (each : ∀ item ∈ items, Reads reader (encode item) (meaning item)) :
    Reads (Reader.times items.length reader) (items.flatMap encode) (items.map meaning) := by
  induction items with
  | nil => exact .pure []
  | cons item items ih =>
      have first := each item List.mem_cons_self
      have others := ih fun other member => each other (List.mem_cons_of_mem item member)
      exact first.bind (others.bind_end (.pure _))

theorem reads_counted {reader : Reader β} {encode : α → List UInt8} {meaning : α → β}
    {items : List α} (fits : items.length < 65536)
    (each : ∀ item ∈ items, Reads reader (encode item) (meaning item)) :
    Reads (Reader.counted reader) (counted encode items) (items.map meaning) :=
  (reads_count fits).bind (reads_times each)

end Stubwright.ClassFile
