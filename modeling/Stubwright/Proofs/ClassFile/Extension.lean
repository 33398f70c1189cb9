import Stubwright.Proofs.ClassFile.RoundTrip
import Mathlib.Data.List.Basic
import Mathlib.Data.Nat.Find

/-!
Bytes behind the input of a reader. A reader that gives a value or finds a fault has not looked at
what follows, so its verdict stays when more follows; only running out of bytes may turn into
something else. The class attributes and the exceptions of a method are read from slices of their
own, and what is wrong inside a slice is not mended by bytes behind it.
-/
namespace Stubwright.ClassFile

/-- More bytes change nothing but what is left, unless the reader runs out of them. -/
def Steady (reader : Reader α) : Prop :=
  ∀ bytes more, reader.run bytes ≠ .error .endOfFile →
    reader.run (bytes ++ more) =
      (reader.run bytes).map fun (value, rest) => (value, rest ++ more)

namespace Steady

variable {reader : Reader α} {next : α → Reader β}

theorem pure (value : α) : Steady (Pure.pure value : Reader α) := by
  intro bytes more _
  rfl

theorem lift (outcome : Except Fault α) : Steady (liftM outcome : Reader α) := by
  intro bytes more _
  cases outcome <;> rfl

theorem bind (first : Steady reader) (second : ∀ value, Steady (next value)) :
    Steady (reader >>= next) := by
  intro bytes more ended
  rw [StateT.run_bind] at ended ⊢
  cases read : reader.run bytes with
  | error fault =>
      have failed : fault ≠ .endOfFile := by
        rintro rfl
        exact ended (by rw [read]; rfl)
      have extended := first bytes more (by simpa [read] using failed)
      rw [StateT.run_bind, extended, read]
      rfl
  | ok result =>
      obtain ⟨value, rest⟩ := result
      rw [read] at ended
      have extended := first bytes more (by simp [read])
      rw [StateT.run_bind, extended, read]
      exact second value rest more ended

theorem map (f : α → β) (steady : Steady reader) : Steady (f <$> reader) := by
  rw [← bind_pure_comp]
  exact steady.bind fun value => pure (f value)

theorem fail_bind (fault : Fault) (next : α → Reader β) :
    Steady (Reader.fail fault >>= next) := by
  intro bytes more _
  rfl

theorem fail (fault : Fault) : Steady (Reader.fail fault : Reader α) := by
  intro bytes more _
  rfl

theorem value_append (steady : Steady reader) {bytes : List UInt8}
    (ended : reader.value bytes ≠ .error .endOfFile) (more : List UInt8) :
    reader.value (bytes ++ more) = reader.value bytes := by
  cases read : reader.run bytes with
  | error fault =>
      have failed : fault ≠ .endOfFile := by
        rintro rfl
        exact ended (by rw [Reader.value, read]; rfl)
      have extended := steady bytes more (by simpa [read] using failed)
      rw [Reader.value, Reader.value, extended, read]
      rfl
  | ok result =>
      have extended := steady bytes more (by simp [read])
      rw [Reader.value, Reader.value, extended, read]
      rfl

theorem slice (count : Nat) : Steady (Reader.slice count) := by
  intro bytes more ended
  cases split : Reader.splitFront? count bytes with
  | none => simp [StateT.run, Reader.slice, split] at ended
  | some parts =>
      obtain ⟨front, rest⟩ := parts
      obtain ⟨size, rfl⟩ := Reader.splitFront?_eq split
      have longer := Reader.splitFront?_append front (rest ++ more)
      rw [size, ← List.append_assoc] at longer
      simp only [StateT.run, Reader.slice, split, longer]
      rfl

theorem skip (count : Nat) : Steady (Reader.skip count) :=
  (slice count).bind fun _ => pure ()

theorem u1 : Steady Reader.u1 :=
  (slice 1).map Reader.number

theorem u2 : Steady Reader.u2 :=
  (slice 2).map Reader.number

theorem u4 : Steady Reader.u4 :=
  (slice 4).map Reader.number

theorem times (steady : Steady reader) (count : Nat) : Steady (Reader.times count reader) := by
  induction count with
  | zero => exact pure []
  | succ count ih => exact steady.bind fun first => ih.bind fun others => pure (first :: others)

theorem counted (steady : Steady reader) : Steady (Reader.counted reader) :=
  u2.bind steady.times

end Steady

theorem steady_filler (width : Nat) (kept : List Constant) :
    Steady (do Reader.skip width; pure kept) :=
  (Steady.skip width).bind fun _ => .pure kept

theorem steady_readConstant : Steady Pool.readConstant := by
  refine Steady.u1.bind fun tag => ?_
  split
  any_goals exact steady_filler _ _
  · refine Steady.u2.bind fun length => (Steady.slice length).bind fun bytes => ?_
    split
    · exact .pure _
    · exact .fail _
  · exact Steady.u2.bind fun nameIndex => .pure _
  · exact .fail _

theorem steady_readConstants (count : Nat) : Steady (Pool.readConstants count) := by
  induction count using Pool.readConstants.induct with
  | case1 => exact .pure []
  | case2 => exact steady_readConstant
  | case3 count double single =>
      refine steady_readConstant.bind fun entries => ?_
      split
      · exact double.bind fun others => .pure _
      · exact single.bind fun others => .pure _

theorem steady_readPool : Steady Pool.read :=
  Steady.u2.bind fun size => (steady_readConstants (size - 1)).bind fun _ => .pure _

theorem steady_readMemberHead : Steady readMemberHead :=
  Steady.u2.bind fun _ => Steady.u2.bind fun _ => Steady.u2.bind fun _ => Steady.u2.bind fun _ =>
    .pure _

theorem steady_skipAttribute : Steady skipAttribute :=
  Steady.u2.bind fun _ => Steady.u4.bind .skip

theorem steady_skipField : Steady skipField :=
  steady_readMemberHead.bind fun head =>
    (steady_skipAttribute.times head.attributeCount).bind fun _ => .pure ()

theorem steady_readClassName (pool : Pool) : Steady (readClassName pool) :=
  Steady.u2.bind fun index => .lift (pool.binaryName index)

theorem steady_readExceptions (pool : Pool) : Steady (readExceptions pool) := by
  refine Steady.u2.bind fun nameIndex => Steady.u4.bind fun length =>
    (Steady.lift (pool.text nameIndex)).bind fun name => ?_
  split
  · exact (Steady.slice length).bind fun body => (Steady.lift _).bind fun names => .pure _
  · exact (Steady.skip length).bind fun _ => .pure []

theorem steady_readMember (pool : Pool) (owner : String) : Steady (readMember pool owner) :=
  steady_readMemberHead.bind fun head => (Steady.lift (pool.text head.nameIndex)).bind fun _ =>
    (Steady.lift (pool.text head.descriptorIndex)).bind fun _ =>
      ((steady_readExceptions pool).times head.attributeCount).bind fun _ => .lift _

theorem steady_readClassAttribute (pool : Pool) (thisIndex : Nat) :
    Steady (readClassAttribute pool thisIndex) := by
  refine Steady.u2.bind fun nameIndex => Steady.u4.bind fun length =>
    (Steady.lift (pool.text nameIndex)).bind fun name =>
      (Steady.slice length).bind fun body => ?_
  split
  · exact .pure _
  · split
    · refine (Steady.lift _).bind fun flags => ?_
      cases flags <;> exact .pure _
    · exact .pure _

theorem steady_readDeclaration : Steady readDeclaration := by
  refine Steady.u4.bind fun magic => ?_
  split
  · exact .fail_bind _ _
  · exact (Steady.skip 2).bind fun _ => (Steady.skip 2).bind fun _ =>
      steady_readPool.bind fun pool => Steady.u2.bind fun flags => Steady.u2.bind fun thisIndex =>
        Steady.u2.bind fun superIndex => (Steady.lift (pool.binaryName thisIndex)).bind fun name =>
          (Steady.lift (readSuperclass pool superIndex)).bind fun superclass =>
            (steady_readClassName pool).counted.bind fun interfaces =>
              steady_skipField.counted.bind fun _ =>
                (steady_readMember pool name).counted.bind fun members =>
                  (steady_readClassAttribute pool thisIndex).counted.bind fun attributes => .pure _

theorem declaration_append {bytes : List UInt8} (ended : declaration bytes ≠ .error .endOfFile)
    (more : List UInt8) : declaration (bytes ++ more) = declaration bytes :=
  steady_readDeclaration.value_append ended more

theorem declaration_eq_of_start {front bytes : List UInt8} (cut : front <+: bytes)
    (ended : declaration front ≠ .error .endOfFile) : declaration bytes = declaration front := by
  obtain ⟨more, rfl⟩ := cut
  exact declaration_append ended more

/-- A file that is read has a shortest beginning that is enough, and it alone decides. -/
theorem exists_enough {bytes : List UInt8} {declared : Declaration}
    (read : declaration bytes = .ok declared) :
    ∃ size ≤ bytes.length, ∀ front, front <+: bytes →
      declaration front = if size ≤ front.length then .ok declared else .error .endOfFile := by
  classical
  have whole : declaration (bytes.take bytes.length) ≠ .error .endOfFile := by
    rw [List.take_length, read]
    exact nofun
  have some_size : ∃ size, declaration (bytes.take size) ≠ .error .endOfFile := ⟨_, whole⟩
  refine ⟨Nat.find some_size, Nat.find_min' some_size whole, ?_⟩
  intro front cut
  have taken : bytes.take front.length = front := (List.prefix_iff_eq_take.mp cut).symm
  split
  · rename_i enough
    have least := declaration_eq_of_start (List.take_prefix _ bytes) (Nat.find_spec some_size)
    have shorter : bytes.take (Nat.find some_size) <+: front := by
      rw [← taken]
      exact List.take_prefix_take_left enough
    rw [declaration_eq_of_start shorter (Nat.find_spec some_size), ← least, read]
  · rename_i short
    have missing := Nat.find_min some_size (not_le.mp short)
    rwa [taken, not_not] at missing

/-- Every verdict but the end of the file is final. So the beginnings of a file that is read tell
nothing else about it: from one length on they give the same declaration, below it they are too
short. -/
theorem verdict_final (bytes : List UInt8) :
    (∀ more, declaration bytes ≠ .error .endOfFile →
      declaration (bytes ++ more) = declaration bytes) ∧
    (∀ declared front, declaration bytes = .ok declared → front <+: bytes →
      declaration front = .ok declared ∨ declaration front = .error .endOfFile) ∧
    ∀ declared, declaration bytes = .ok declared →
      ∃ size ≤ bytes.length, ∀ front, front <+: bytes →
        declaration front = if size ≤ front.length then .ok declared else .error .endOfFile := by
  refine ⟨fun more ended => declaration_append ended more, ?_, fun declared => exists_enough⟩
  intro declared front read cut
  obtain ⟨size, -, decides⟩ := exists_enough read
  rw [decides front cut]
  split
  · exact .inl rfl
  · exact .inr rfl

theorem verdict_final_bareImage :
    declaration (bareImage.encode ++ [0xff]) = .ok ⟨"A", .classType, ⟨0⟩, none, [], [], []⟩ ∧
      (declaration (bareImage.encode.take 30) = .ok ⟨"A", .classType, ⟨0⟩, none, [], [], []⟩ ∨
        declaration (bareImage.encode.take 30) = .error .endOfFile) ∧
      ∃ size ≤ bareImage.encode.length, ∀ front, front <+: bareImage.encode →
        declaration front =
          if size ≤ front.length then .ok ⟨"A", .classType, ⟨0⟩, none, [], [], []⟩
          else .error .endOfFile := by
  have formed : bareImage.WellFormed :=
    { slots_fit := by decide
      texts_fit := by decide
      this_named := by decide
      superclass_named := by decide
      interfaces_fit := by decide
      interfaces_named := by decide
      fields_fit := by decide
      fields_formed := by decide
      methods_fit := by decide
      methods_formed := by decide
      attributes_fit := by decide
      attributes_formed := by decide }
  have read : declaration bareImage.encode = .ok ⟨"A", .classType, ⟨0⟩, none, [], [], []⟩ :=
    (reads_declaration formed (by decide)).value_eq.trans (congrArg Except.ok (by decide))
  obtain ⟨lengthened, shortened, decided⟩ := verdict_final bareImage.encode
  have final := lengthened [0xff] (by rw [read]; exact nofun)
  exact ⟨final.trans read, shortened _ _ read (List.take_prefix 30 _), decided _ read⟩

end Stubwright.ClassFile
