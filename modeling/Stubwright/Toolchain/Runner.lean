import Stubwright.Disk.Action

namespace Stubwright.Toolchain

open Disk

structure ProgramResult where
  /-- Nothing for a program that was killed. -/
  exitStatus : Option Nat
  output : List UInt8
  errors : List UInt8
deriving DecidableEq, Repr

/-- Runs a program with some arguments, or says why it cannot be run. -/
abbrev Runner := (program : String) → (arguments : List String) → Action Disk.Fault ProgramResult

end Stubwright.Toolchain
