import Stubwright.Archive.Deflate
import Stubwright.Disk.Names
import Stubwright.Toolchain.Runner

/-!
What a run leaves to others besides the disk: running programs, choosing the names of temporary
files, and compressing. Whatever is proved of a run holds for every host.
-/
namespace Stubwright

structure Host where
  runner : Toolchain.Runner
  names : Disk.Names
  deflater : Archive.Deflater

end Stubwright
