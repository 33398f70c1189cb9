import Stubwright.ClassFile.Fault

/-!
Reading numbers and slices off the front of a class file. Numbers are big-endian; whatever asks for
more bytes than are left fails with `endOfFile` and nothing else does.
-/
namespace Stubwright.ClassFile

abbrev Reader (α : Type) := StateT (List UInt8) (Except Fault) α

namespace Reader

/-- Runs a reader on bytes of its own and forgets those it leaves. -/
def value (reader : Reader α) (bytes : List UInt8) : Except Fault α :=
  (reader.run bytes).map Prod.fst

def fail (fault : Fault) : Reader α :=
  throw fault

def splitFront? : Nat → List UInt8 → Option (List UInt8 × List UInt8)
  | 0, bytes => some ([], bytes)
  | _ + 1, [] => none
  | count + 1, byte :: rest =>
      match splitFront? count rest with
      | none => none
      | some (front, rest) => some (byte :: front, rest)

def slice (count : Nat) : Reader (List UInt8) := fun bytes =>
  match splitFront? count bytes with
  | none => .error .endOfFile
  | some (front, rest) => .ok (front, rest)

def skip (count : Nat) : Reader Unit := do
  let _ ← slice count
  pure ()

/-- The number that bytes spell, the most significant first. -/
def number (bytes : List UInt8) : Nat :=
  bytes.foldl (fun total byte => total * 256 + byte.toNat) 0

def u1 : Reader Nat := number <$> slice 1

def u2 : Reader Nat := number <$> slice 2

def u4 : Reader Nat := number <$> slice 4

def times : Nat → Reader α → Reader (List α)
  | 0, _ => pure []
  | count + 1, reader => do
      let first ← reader
      let others ← times count reader
      pure (first :: others)

/-- A list with its length in front. -/
def counted (reader : Reader α) : Reader (List α) := do
  let count ← u2
  times count reader

theorem splitFront?_eq {count : Nat} {bytes front rest : List UInt8}
    (found : splitFront? count bytes = some (front, rest)) :
    front.length = count ∧ bytes = front ++ rest := by
  induction count generalizing bytes front with
  | zero =>
      simp only [splitFront?, Option.some.injEq, Prod.mk.injEq] at found
      obtain ⟨rfl, rfl⟩ := found
      simp
  | succ count ih =>
      cases bytes with
      | nil => simp [splitFront?] at found
      | cons byte tail =>
          simp only [splitFront?] at found
          split at found
          · simp at found
          · rename_i inner after split
            simp only [Option.some.injEq, Prod.mk.injEq] at found
            obtain ⟨rfl, rfl⟩ := found
            obtain ⟨size, rfl⟩ := ih split
            simp [size]

theorem splitFront?_append (front rest : List UInt8) :
    splitFront? front.length (front ++ rest) = some (front, rest) := by
  induction front with
  | nil => rfl
  | cons byte front ih => simp [splitFront?, ih]

end Reader

end Stubwright.ClassFile
