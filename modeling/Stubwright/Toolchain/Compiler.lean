import Stubwright.Disk.Action
import Stubwright.Failure

namespace Stubwright

open Disk

structure CompileJob where
  unitPath : String
  outputDirectory : String
  classPath : List String
deriving DecidableEq, Repr

structure CompileOutcome where
  status : Int
  diagnostics : String
deriving DecidableEq, Repr

def CompileOutcome.isSuccess (outcome : CompileOutcome) : Bool :=
  outcome.status == 0

abbrev Compiler := CompileJob → Action Failure CompileOutcome

end Stubwright
