import Stubwright.Catalog.Basic
import Stubwright.Disk.World
import Stubwright.Failure

namespace Stubwright.Catalog

open Disk

def load (world : World) (path : String) : Except Failure Catalog :=
  match world.readText path with
  | .error fault => .error (.ofDisk path fault)
  | .ok text =>
      match parse text with
      | .ok catalog => .ok catalog
      | .error _ => .error (.invalidArgument (.badCatalog path))

end Stubwright.Catalog
