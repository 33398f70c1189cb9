import Stubwright.Disk.SystemFault
import Stubwright.Text.Quoted

namespace Stubwright.Disk

inductive Fault where
  | system (fault : SystemFault)
  /-- A fault in the content of a file, or one that a caller describes. -/
  | described (isDenial : Bool) (text : String)
deriving DecidableEq, Repr

namespace Fault

def message : Fault → String
  | system fault => fault.message
  | described _ text => text

def isDenial : Fault → Bool
  | system fault => fault.isDenial
  | described isDenial _ => isDenial

def notText : Fault := described false "stream did not contain valid UTF-8"

/-- No name on a disk holds the character zero. -/
def zeroInPath : Fault := described false "file name contained an unexpected NUL byte"

def atPath (fault : Fault) (path : String) : Fault :=
  described fault.isDenial (fault.message ++ " at path " ++ Text.inQuotes path)

end Fault

end Stubwright.Disk
