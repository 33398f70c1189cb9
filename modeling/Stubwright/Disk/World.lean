import Stubwright.Disk.Path
import Stubwright.Disk.Fault
import Stubwright.Disk.Tree
import Stubwright.Text.Utf8

namespace Stubwright.Disk

structure World where
  tree : Tree
  workingDirectory : Place
  environment : List (String × String)
deriving DecidableEq, Repr

structure Spot where
  place : Place
  node : Option Node
deriving DecidableEq, Repr

/-- The steps that a path takes. The last one is a slash if the path ends in one. -/
def steps (path : String) : List String :=
  let named := (Path.pieces path).filter (· != "")
  if path.toList.getLast? == some '/' then named ++ ["/"] else named

inductive LastStep where
  /-- An entry of a directory. A link is not followed. -/
  | entry
  /-- What the path leads to. A slash at its end makes that a directory. -/
  | target
  /-- A file to be written. No slash may follow its name. -/
  | written
deriving DecidableEq, Repr

def longestName : Nat := 255

def longestPath : Nat := 4095

def mostLinks : Nat := 40

/-- Follows the steps of a path from a directory on. The last step may lead to nothing. A link before
it, or a last one that is not meant itself, is left to `follow`. -/
def walkUntilLink (tree : Tree) (last : LastStep)
    (follow : List String → Place → Except SystemFault Spot) :
    (todo : List String) → (here : Place) → Except SystemFault Spot
  | [], here => .ok ⟨here, some .directory⟩
  | name :: rest, here =>
      if name = "." || name = "/" then walkUntilLink tree last follow rest here
      else if name = ".." then walkUntilLink tree last follow rest here.dropLast
      else if last = .written && rest = ["/"] then .error .isDirectory
      else if name.utf8ByteSize > longestName then .error .nameTooLong
      else
        let place := here ++ [name]
        match tree.node? place with
        | some .directory => walkUntilLink tree last follow rest place
        | some (.link target) =>
            if rest.isEmpty && last = .entry then .ok ⟨place, some (.link target)⟩
            else follow (steps target ++ rest) (if Path.isAbsolute target then [] else here)
        | some node => if rest.isEmpty then .ok ⟨place, some node⟩ else .error .notDirectory
        | none => if rest.isEmpty then .ok ⟨place, none⟩ else .error .notFound

def walk (tree : Tree) (last : LastStep) :
    (links : Nat) → (todo : List String) → (here : Place) → Except SystemFault Spot
  | 0 => walkUntilLink tree last fun _ _ => .error .linkLoop
  | links + 1 => walkUntilLink tree last (walk tree last links)

namespace World

def environmentValue? (world : World) (name : String) : Option String :=
  world.environment.lookup name

def walkFrom (world : World) (last : LastStep) (path : String) (todo : List String) :
    Except Fault Spot :=
  if path.isEmpty then .error (.system .notFound)
  else if path.toList.contains '\x00' then .error .zeroInPath
  else if path.utf8ByteSize > longestPath then .error (.system .nameTooLong)
  else
    (walk world.tree last mostLinks todo
      (if Path.isAbsolute path then [] else world.workingDirectory)).mapError .system

def locate (world : World) (path : String) : Except Fault Spot :=
  world.walkFrom .target path (steps path)

def locateForWriting (world : World) (path : String) : Except Fault Spot :=
  world.walkFrom .written path (steps path)

/-- Where a path leads if a link at its end, even before a slash, is not followed. -/
def locateEntry (world : World) (path : String) : Except Fault Spot :=
  world.walkFrom .entry path ((Path.pieces path).filter (· != ""))

def nodeAt? (world : World) (path : String) : Option Node :=
  match world.locate path with
  | .ok spot => spot.node
  | .error _ => none

def pathExists (world : World) (path : String) : Bool :=
  (world.nodeAt? path).isSome

def isDirectory (world : World) (path : String) : Bool :=
  world.nodeAt? path == some .directory

def isFile (world : World) (path : String) : Bool :=
  match world.nodeAt? path with
  | some (.file ..) => true
  | _ => false

def isExecutable (world : World) (path : String) : Bool :=
  match world.nodeAt? path with
  | some (.file _ isExecutable) => isExecutable
  | _ => false

def readFile (world : World) (path : String) : Except Fault (List UInt8) :=
  match world.locate path with
  | .error fault => .error fault
  | .ok ⟨_, some (.file content _)⟩ => .ok content
  | .ok ⟨_, some (.device _)⟩ => .ok []
  | .ok ⟨_, some .directory⟩ => .error (.system .isDirectory)
  | .ok _ => .error (.system .notFound)

def readText (world : World) (path : String) : Except Fault String :=
  match world.readFile path with
  | .error fault => .error fault
  | .ok content =>
      match Text.Utf8.decode? content with
      | some text => .ok (String.ofList text)
      | none => .error .notText

def entryNames (world : World) (path : String) : Except Fault (List String) :=
  match world.locate path with
  | .error fault => .error fault
  | .ok ⟨place, some .directory⟩ => .ok (world.tree.children place)
  | .ok ⟨_, some _⟩ => .error (.system .notDirectory)
  | .ok ⟨_, none⟩ => .error (.system .notFound)

def absolutePath (place : Place) : String :=
  if place.isEmpty then "/" else String.join (place.map ("/" ++ ·))

def canonicalPath (world : World) (path : String) : Except Fault String :=
  match world.locate path with
  | .error fault => .error fault
  | .ok ⟨place, some _⟩ => .ok (absolutePath place)
  | .ok ⟨_, none⟩ => .error (.system .notFound)

end World

end Stubwright.Disk
