import Stubwright.Shell.Utility.Files
import Stubwright.Shell.Utility.Listing
import Stubwright.Shell.Utility.Removal
import Stubwright.Shell.Utility.Transfer
import Stubwright.Shell.Utility.Texts

namespace Stubwright.Shell.Utility

def find? : String → Option (Value → List Value → Running Nat)
  | "cat" => some cat
  | "echo" => some fun _ arguments => echo arguments
  | "printf" => some printf
  | "sleep" => some sleep
  | "true" => some fun _ _ => pure 0
  | "false" => some fun _ _ => pure 1
  | "test" => some fun program arguments => test program false arguments
  | "[" => some fun program arguments => test program true arguments
  | "pwd" => some fun _ _ => pwd
  | "printenv" => some printenv
  | "mkdir" => some mkdir
  | "rmdir" => some rmdir
  | "rm" => some rm
  | "unlink" => some unlink
  | "cp" => some cp
  | "mv" => some mv
  | "ln" => some ln
  | "touch" => some touch
  | "chmod" => some chmod
  | "ls" => some ls
  | "basename" => some basename
  | "dirname" => some dirname
  | "head" => some (excerpt true)
  | "tail" => some (excerpt false)
  | "wc" => some wc
  | "tee" => some tee
  | "sort" => some sort
  | _ => none

def names : List String :=
  ["[", "basename", "cat", "chmod", "cp", "dirname", "echo", "false", "head", "ln", "ls", "mkdir",
    "mv", "printenv", "printf", "pwd", "rm", "rmdir", "sleep", "sort", "tail", "tee", "test",
    "touch", "true", "unlink", "wc"]

end Stubwright.Shell.Utility
