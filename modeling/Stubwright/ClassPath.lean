import Stubwright.Archive.Basic
import Stubwright.ClassFile.Declared
import Stubwright.Disk.World
import Stubwright.Hierarchy.Source

/-!
The class path: directories and archives that are searched one after the other for the class file of
a name. A class file that declares another name counts as missing, one that cannot be read ends the
search. Archives that were opened stay open for the searches that follow.
-/
namespace Stubwright

open Disk Text

structure ClassPath where
  entries : List String
deriving DecidableEq, Repr

/-- An archive that stays open. Its directory is the one it was opened with. -/
structure OpenArchive where
  archive : Archive
  /-- Where its file is by now; nothing once another one has taken its place. -/
  place : Option Place
deriving Repr

/-- Archives by the components of the path under which they were opened. -/
abbrev OpenArchives := List (List String × OpenArchive)

namespace OpenArchives

/-- The open archives after a file got another content. -/
def written (place : Place) (content : List UInt8) (archives : OpenArchives) : OpenArchives :=
  archives.map fun (path, opened) =>
    (path, if opened.place = some place then { opened with archive.bytes := content } else opened)

def moved (source target : Place) (archives : OpenArchives) : OpenArchives :=
  let follow (place : Place) : Option Place :=
    if source.isPrefixOf place then some (target ++ place.drop source.length)
    else if target.isPrefixOf place then none
    else some place
  archives.map fun (path, opened) => (path, { opened with place := opened.place.bind follow })

end OpenArchives

abbrev Searching (α : Type) := ExceptT Failure (StateM OpenArchives) α

namespace ClassPath

def separator : Char := ':'

def entriesOf (raw : String) : List String :=
  (((cut separator raw.toList).map trim).filter (!·.isEmpty)).map String.ofList

def ofTexts (raw : List String) : ClassPath :=
  ⟨raw.flatMap entriesOf⟩

def toText (classPath : ClassPath) : String :=
  (String.singleton separator).intercalate classPath.entries

def append (classPath other : ClassPath) : ClassPath :=
  ⟨classPath.entries ++ other.entries⟩

def lowerCase (text : String) : String :=
  text.map Char.toLower

/-- Archives are told by their extension, in letters of either case. -/
def isArchive (path : String) : Bool :=
  match Path.extension? path with
  | some extension => ["jar", "zip", "jmod"].contains (lowerCase extension)
  | none => false

def classFileName (name : String) : String :=
  swapped '.' '/' name ++ ".class"

def probe (directory name : String) : String :=
  ((cut '/' (classFileName name).toList).map String.ofList).foldl Path.join directory

structure Hit where
  content : List UInt8
  origin : String
deriving DecidableEq, Repr

def inDirectory (world : World) (directory name : String) : Except Failure (Option Hit) :=
  let path := probe directory name
  if world.isFile path then
    match world.readFile path with
    | .ok content => .ok (some ⟨content, path⟩)
    | .error fault => .error (.ofDisk path fault)
  else .ok none

def openArchive (world : World) (path : String) : Except Failure OpenArchive :=
  match world.readFile path with
  | .error fault => .error (.ofDisk path fault)
  | .ok bytes =>
      match Archive.ofBytes bytes with
      | .ok archive => .ok ⟨archive, (world.locate path).toOption.map Spot.place⟩
      | .error fault => .error (.ofDisk path (.described false fault.message))

def opened (world : World) (path : String) : Searching Archive := do
  match (← get).lookup (Path.components path) with
  | some found => pure found.archive
  | none =>
      let found ← openArchive world path
      modify ((Path.components path, found) :: ·)
      pure found.archive

/-- The first of several entries that an archive has. -/
def inArchive (path : String) (archive : Archive) : List String → Except Failure (Option Hit)
  | [] => .ok none
  | entryName :: others =>
      match archive.stored? entryName with
      | none => inArchive path archive others
      | some entry =>
          match archive.content entry with
          | .ok content => .ok (some ⟨content, path ++ "!/" ++ entryName⟩)
          | .error fault => .error (.ofDisk path (.described false fault.message))

/-- In archives of modules the class files are in a directory of their own. -/
def entryNames (name : String) : List String :=
  [classFileName name, "classes/" ++ classFileName name]

def hitAt (world : World) (name entry : String) : Searching (Option Hit) := do
  if !world.pathExists entry then pure none
  else if world.isDirectory entry then inDirectory world entry name
  else if isArchive entry then
    let archive ← opened world entry
    inArchive entry archive (entryNames name)
  else pure none

def loadAlong (world : World) (name : String) : List String → Searching (Option Declaration)
  | [] => pure none
  | entry :: others => do
      match ← hitAt world name entry with
      | none => loadAlong world name others
      | some hit =>
          match ClassFile.declaration hit.content with
          | .error fault => throw (.notIntrospectable name (.badClassFile hit.origin fault))
          | .ok declaration =>
              if declaration.name = name then pure (some declaration.normalized)
              else loadAlong world name others

def load (classPath : ClassPath) (world : World) (name : String) : Searching (Option Declaration) :=
  loadAlong world name classPath.entries

/-- A class file for every file and, if it is an archive, for every byte of it is more than there
can be. -/
def extent (world : World) : Nat :=
  (world.tree.entries.map fun entry =>
    match entry.2 with
    | .file content _ => content.length + 1
    | _ => 0).foldl (· + ·) 0

/-- The class path as a source. Each lookup opens its archives anew. -/
def source (classPath : ClassPath) (world : World) : Source :=
  { lookup := fun name => ((classPath.load world name).run.run []).1
    extent := extent world }

/-- The archives with the platform's own classes, below the home directory of a kit. -/
def kitArchives (world : World) (home : String) : List String :=
  let modules := Path.join home "jmods"
  let names := match world.entryNames modules with
    | .ok names => names
    | .error _ => []
  (names.map (Path.join modules)).filter (fun path => world.isFile path && isArchive path) ++
    [Path.ofSegments [home, "jre", "lib", "rt.jar"],
      Path.ofSegments [home, "lib", "rt.jar"]].filter world.isFile

def withKit (classPath : ClassPath) (world : World) (home : String) : ClassPath :=
  classPath.append ⟨kitArchives world home⟩

end ClassPath

end Stubwright
