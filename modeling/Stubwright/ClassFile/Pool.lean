import Stubwright.ClassFile.Reader
import Stubwright.ClassFile.Descriptor
import Stubwright.Text.ModifiedUtf8

/-!
The constant pool of a class file. Only texts and class references matter to a declaration; the
other constants are skipped, but they take up indexes, a long or double constant two of them.
-/
namespace Stubwright.ClassFile

open Text

inductive Constant where
  | text (value : String)
  | classReference (nameIndex : Nat)
  | other
  /-- The second index of a constant that takes up two. -/
  | unusable
deriving DecidableEq, Repr

/-- The constants from index one upwards. -/
structure Pool where
  constants : List Constant
deriving Repr

namespace Pool

/-- One constant. Two entries come from a constant that takes up two indexes. -/
def readConstant : Reader (List Constant) := do
  let tag ← Reader.u1
  match tag with
  | 1 => do
      let length ← Reader.u2
      let bytes ← Reader.slice length
      match ModifiedUtf8.decode? bytes with
      | some text => pure [.text (String.ofList text)]
      | none => Reader.fail .badText
  | 3 | 4 | 9 | 10 | 11 | 12 | 17 | 18 => do
      Reader.skip 4
      pure [.other]
  | 5 | 6 => do
      Reader.skip 8
      pure [.other, .unusable]
  | 7 => do
      let nameIndex ← Reader.u2
      pure [.classReference nameIndex]
  | 8 | 16 | 19 | 20 => do
      Reader.skip 2
      pure [.other]
  | 15 => do
      Reader.skip 3
      pure [.other]
  | tag => Reader.fail (.unsupportedConstant tag)

/-- Constants until as many indexes are taken up as asked for. -/
def readConstants : Nat → Reader (List Constant)
  | 0 => pure []
  | 1 => readConstant
  | count + 2 => do
      let entries ← readConstant
      let others ← if entries.length = 2 then readConstants count else readConstants (count + 1)
      pure (entries ++ others)

/-- The pool with its size in front, which counts the missing index zero. -/
def read : Reader Pool := do
  let size ← Reader.u2
  let constants ← readConstants (size - 1)
  pure ⟨constants⟩

def constant? (pool : Pool) : Nat → Option Constant
  | 0 => none
  | index + 1 => pool.constants[index]?

def text (pool : Pool) (index : Nat) : Except Fault String :=
  match pool.constant? index with
  | some (.text value) => .ok value
  | _ => .error (.badIndex index)

def className (pool : Pool) (index : Nat) : Except Fault String :=
  match pool.constant? index with
  | some (.classReference nameIndex) => pool.text nameIndex
  | _ => .error (.badIndex index)

def binaryName (pool : Pool) (index : Nat) : Except Fault String := do
  let name ← pool.className index
  pure (binaryNameOf name.toList)

end Pool

end Stubwright.ClassFile
