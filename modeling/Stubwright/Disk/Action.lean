import Stubwright.Disk.World

/-!
What changes a disk. A change happens or fails and leaves everything as it was; an action is made of
changes and of looks at the disk, and what it did before it failed stays done.
-/
namespace Stubwright.Disk

abbrev Change := World → Except Fault World

abbrev Action (ε α : Type) := ExceptT ε (StateM World) α

def perform (change : Change) : Action Fault Unit := do
  match change (← get) with
  | .ok after => set after
  | .error fault => throw fault

def Action.runIn (action : Action ε α) (world : World) : Except ε α × World :=
  action.run.run world

namespace Change

def makeDirectory (path : String) : Change := fun world =>
  match world.locateEntry path with
  | .error fault => .error fault
  | .ok ⟨place, none⟩ => .ok { world with tree := world.tree.put place .directory }
  | .ok ⟨_, some _⟩ => .error (.system .alreadyExists)

/-- Writes a file, whether it is there or not. One that is there keeps its rights. -/
def writeFile (path : String) (content : List UInt8) : Change := fun world =>
  match world.locateForWriting path with
  | .error fault => .error fault
  | .ok ⟨_, some .directory⟩ => .error (.system .isDirectory)
  | .ok ⟨_, some (.device device)⟩ =>
      if device.canHold content then .ok world else .error (.system .noSpace)
  | .ok ⟨place, some (.file _ isExecutable)⟩ =>
      .ok { world with tree := world.tree.put place (.file content isExecutable) }
  | .ok ⟨place, _⟩ => .ok { world with tree := world.tree.put place (.file content false) }

def removeDirectory (path : String) : Change := fun world =>
  match world.locateEntry path with
  | .error fault => .error fault
  | .ok ⟨_, none⟩ => .error (.system .notFound)
  | .ok ⟨place, some .directory⟩ | .ok ⟨place, some (.link _)⟩ =>
      .ok { world with tree := world.tree.remove place }
  | .ok ⟨_, some _⟩ => .error (.system .notDirectory)

def removeAll (path : String) : Change := fun world =>
  match world.locateEntry path with
  | .error fault => .error fault
  | .ok ⟨_, none⟩ => .error (.system .notFound)
  | .ok ⟨place, some _⟩ => .ok { world with tree := world.tree.remove place }

def endsInName (path : String) : Bool :=
  match ((Path.pieces path).filter (· != "")).getLast? with
  | some name => name != "." && name != ".."
  | none => false

def checkReplacement (world : World) (source target : Spot) (slashAtEnd : Bool) :
    Except SystemFault Unit :=
  match source.node, target.node with
  | none, _ => .error .notFound
  | some .directory, none => .ok ()
  | some .directory, some .directory =>
      if source.place = target.place || world.tree.children target.place = [] then .ok ()
      else .error .notEmpty
  | some .directory, some _ => .error .notDirectory
  | some _, some .directory => .error (if slashAtEnd then .notDirectory else .isDirectory)
  | some _, _ => if slashAtEnd then .error .notDirectory else .ok ()

def rename (source target : String) : Change := fun world =>
  if [source, target].any (·.toList.contains '\x00') then .error (.system .invalidArgument)
  else match world.locateEntry source, world.locateEntry target with
  | .error fault, _ => .error fault
  | _, .error fault => .error fault
  | .ok start, .ok stop =>
      let isBelow (inner outer : Spot) : Bool :=
        outer.place.isPrefixOf inner.place && outer.place != inner.place
      if !endsInName source || !endsInName target then .error (.system .busy)
      else if start.node.isSome && isBelow stop start then .error (.system .invalidArgument)
      else if start.node.isSome && isBelow start stop then .error (.system .notEmpty)
      else
        let slashAtEnd := [source, target].any fun path => path.toList.getLast? == some '/'
        match checkReplacement world start stop slashAtEnd with
        | .error fault => .error (.system fault)
        | .ok () =>
            if start.place = stop.place then .ok world
            else .ok { world with tree := world.tree.move start.place stop.place }

end Change

/-- Makes the first of several nested directories, after those above it that are missing. -/
def makeDirectoriesAlong : List String → Action Fault Unit
  | [] => pure ()
  | path :: above => do
      if path.isEmpty then pure ()
      else
        match Change.makeDirectory path (← get) with
        | .ok after => set after
        | .error (.system .notFound) =>
            makeDirectoriesAlong above
            match Change.makeDirectory path (← get) with
            | .ok after => set after
            | .error fault => if (← get).isDirectory path then pure () else throw fault
        | .error fault => if (← get).isDirectory path then pure () else throw fault

def makeDirectories (path : String) : Action Fault Unit :=
  makeDirectoriesAlong (Path.ancestors path)

end Stubwright.Disk
