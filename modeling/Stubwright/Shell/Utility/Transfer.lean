import Stubwright.Shell.Utility.Basic

namespace Stubwright.Shell.Utility

open Disk Text

structure Journey where
  source : Value
  target : Value

def landing (directory source : Value) : Value :=
  if endsInStep source then directory else below directory (lastName source)

def directoryFault (world : World) (path : Value) : Disk.Fault :=
  match world.locate (Octets.toText path) with
  | .error fault => fault
  | .ok ⟨_, none⟩ => .system .notFound
  | .ok _ => .system .notDirectory

/-- Whether a path is a directory to bring things to. `keepsLinks` if a link to one is not. -/
def isGoal (world : World) (keepsLinks : Bool) (path : Value) : Bool :=
  let node? := if keepsLinks then (spotAt world path).toOption.bind (·.node)
    else world.nodeAt? (Octets.toText path)
  node? == some .directory

def journeys (program : Value) (request : Request) (links : Bool) :
    Running (Except Nat (List Journey)) := do
  let world := (← get).world
  let into (directory : Value) (sources : List Value) : List Journey :=
    sources.map fun source => ⟨source, landing directory source⟩
  let keepsLinks := links && request.has 'n'
  match request.value? 't', request.operands with
  | _, [] => return .error (← misuse 1 program (octets "missing file operand"))
  | some directory, sources =>
      if isGoal world false directory then return .ok (into directory sources)
      let message := octets "target directory " ++ quoted directory ++ octets ": " ++
        reason (directoryFault world directory)
      complain program message
      return .error 1
  | none, [source] =>
      if links && !request.has 'T' then return .ok (into ['.'] [source])
      return .error (← misuse 1 program
        (octets "missing destination file operand after " ++ quoted source))
  | none, [source, target] =>
      if !request.has 'T' && isGoal world keepsLinks target then
        return .ok (into target [source])
      return .ok [⟨source, target⟩]
  | none, first :: second :: extra :: others =>
      if request.has 'T' then
        return .error (← misuse 1 program (octets "extra operand " ++ quoted extra))
      let operands := first :: second :: extra :: others
      let target := operands.getLastD []
      if isGoal world false target then return .ok (into target operands.dropLast)
      let message := octets "target " ++ quoted target ++ octets ": " ++
        reason (directoryFault world target)
      complain program message
      return .error 1

def tellArrival (before : String) (journey : Journey) : Running Unit :=
  tell (octets before ++ quoted journey.source ++ octets " -> " ++ quoted journey.target)

structure CopyRules where
  isRecursive : Bool
  /-- Whether a link is copied as what it leads to. -/
  follows : Bool
  keepsRights : Bool
  keepsPresent : Bool
  /-- Whether what is in the way is removed first. -/
  clearsWay : Bool
  isLoud : Bool

def CopyRules.ofRequest (request : Request) : CopyRules :=
  let isRecursive := request.hasAny "rRa"
  let follows := match request.last? "LPHda" with
    | some 'L' | some 'H' => true
    | some _ => false
    | none => !isRecursive
  ⟨isRecursive, follows, request.hasAny "pa", request.has 'n', request.has 'c', request.has 'v'⟩

def CopyRules.spotOf (rules : CopyRules) (world : World) (path : Value) :
    Except Disk.Fault Spot :=
  if rules.follows then world.locate (Octets.toText path) else spotAt world path

def copyFile (program : Value) (rules : CopyRules) (journey : Journey) (content : List UInt8)
    (isExecutable : Bool) : Running Bool := do
  let goal := Octets.toText journey.target
  if rules.clearsWay then
    let _ ← change (Disk.Change.removeAll goal)
  let world := (← get).world
  let isPresent := world.pathExists goal
  let isDangling := !isPresent && match world.locateEntry goal with
    | .ok ⟨_, some (.link _)⟩ => true
    | _ => false
  if isDangling then
    complain program (octets "not writing through dangling symlink " ++ quoted journey.target)
    pure false
  else
    match ← change (Disk.Change.writeFile goal content) with
    | some fault =>
        let fault := if fault = .system .isDirectory then .system .notDirectory else fault
        complainAt program "cannot create regular file " journey.target fault
        pure false
    | none =>
        let world := (← get).world
        match world.locate goal with
        | .ok ⟨place, some (.file content _)⟩ =>
            if !isPresent || rules.keepsRights then
              let tree := world.tree.put place (.file content isExecutable)
              modify fun machine => { machine with world.tree := tree }
        | _ => pure ()
        if rules.isLoud then tellArrival "" journey
        pure true

def copyDirectory (program : Value) (rules : CopyRules) (journey : Journey) : Running Bool := do
  match (← get).world.nodeAt? (Octets.toText journey.target) with
  | some .directory => pure true
  | some _ =>
      complain program (octets "cannot overwrite non-directory " ++ quoted journey.target ++
        octets " with directory " ++ quoted journey.source)
      pure false
  | none =>
      match ← change (Disk.Change.makeDirectory (Octets.toText journey.target)) with
      | none =>
          if rules.isLoud then tellArrival "" journey
          pure true
      | some fault =>
          complainAt program "cannot create directory " journey.target fault
          pure false

def copyNode (program : Value) (rules : CopyRules) (journey : Journey) (node : Node) :
    Running Bool := do
  let world := (← get).world
  match world.locateEntry (Octets.toText journey.target) with
  | .error fault =>
      complainAt program "cannot create symbolic link " journey.target fault
      pure false
  | .ok spot =>
      modify fun machine => { machine with world.tree := world.tree.put spot.place node }
      if rules.isLoud then tellArrival "" journey
      pure true

def isSame (world : World) (journey : Journey) : Bool :=
  match world.locate (Octets.toText journey.source),
    world.locate (Octets.toText journey.target) with
  | .ok start, .ok stop => start.node.isSome && start.place = stop.place
  | _, _ => false

def copySpot (program : Value) (rules : CopyRules) (journey : Journey) (node : Node) :
    Running Bool := do
  let world := (← get).world
  let target? := world.nodeAt? (Octets.toText journey.target)
  if rules.keepsPresent && target?.isSome && node != .directory then pure true
  else if node != .directory && target? = some .directory then
    complain program (octets "cannot overwrite directory " ++ quoted journey.target ++
      octets " with non-directory")
    pure false
  else if node != .directory && isSame world journey then
    complain program (quoted journey.source ++ octets " and " ++ quoted journey.target ++
      octets " are the same file")
    pure false
  else
    match node with
    | .directory => copyDirectory program rules journey
    | .file content isExecutable => copyFile program rules journey content isExecutable
    | .link target => copyNode program rules journey (.link target)
    | .device device =>
        if rules.isRecursive then copyNode program rules journey (.device device)
        else copyFile program rules journey [] false

/-- Copies directories and what they hold, in an order in which a directory comes first. What is
below one that could not be made is left out. -/
def copyAll (program : Value) (rules : CopyRules) (journey : Journey) (start : Place) :
    (failed : List Place) → List (Place × Node) → Running Bool
  | failed, [] => pure failed.isEmpty
  | failed, (place, node) :: others => do
      let path (top : Value) : Value :=
        (place.drop start.length).foldl (fun path name => below path (octets name)) top
      let inner : Journey := ⟨path journey.source, path journey.target⟩
      if failed.any (·.isPrefixOf place) then copyAll program rules journey start failed others
      else if ← copySpot program rules inner node then
        copyAll program rules journey start failed others
      else copyAll program rules journey start (place :: failed) others

def copy (program : Value) (rules : CopyRules) (journey : Journey) : Running Bool := do
  let world := (← get).world
  let fails (fault : Disk.Fault) : Running Bool := do
    complainAt program "cannot stat " journey.source fault
    pure false
  match rules.spotOf world journey.source with
  | .error fault => fails fault
  | .ok ⟨_, none⟩ => fails (.system .notFound)
  | .ok ⟨place, some .directory⟩ =>
      if !rules.isRecursive then
        complain program (octets "-r not specified; omitting directory " ++ quoted journey.source)
        pure false
      else
        let goal? := (world.locate (Octets.toText journey.target)).toOption.map (·.place)
        let isInner (inner : Place) : Bool := match goal? with
          | some goal => place.isPrefixOf goal && goal.isPrefixOf inner && goal != inner
          | none => false
        let isRepeated := match goal? with
          | some goal => place.isPrefixOf goal
          | none => false
        let held := world.tree.entries.filter fun entry =>
          place.isPrefixOf entry.1 && entry.1 != place && !isInner entry.1
        let held := held.mergeSort fun a b => (compare a.1 b.1).isLE
        let isDone ← copyAll program rules journey place [] ((place, .directory) :: held)
        if isRepeated then
          complain program (octets "cannot copy a directory, " ++ quoted journey.source ++
            octets ", into itself, " ++ quoted journey.target)
          pure false
        else pure isDone
  | .ok ⟨_, some node⟩ => copySpot program rules journey node

def cp (program : Value) (arguments : List Value) : Running Nat :=
  let words := [("recursive", 'r'), ("archive", 'a'), ("force", 'f'), ("no-clobber", 'n'),
    ("verbose", 'v'), ("dereference", 'L'), ("no-dereference", 'P'), ("preserve", 'p'),
    ("target-directory", 't'), ("no-target-directory", 'T'), ("update", 'u'),
    ("remove-destination", 'c'), ("interactive", 'i'), ("one-file-system", 'x')]
  withRequest ⟨"abcdfHiLnpPrRTuvxZ", "tS", words, false⟩ 1 program arguments fun request => do
    match ← journeys program request false with
    | .error status => pure status
    | .ok all => forEach all (copy program (.ofRequest request))

def moveComplaint? (world : World) (journey : Journey) (start stop : Spot) : Option Value :=
  let isDirectory := start.node = some .directory
  if start.place = stop.place && !isDirectory then
    some (quoted journey.source ++ octets " and " ++ quoted journey.target ++
      octets " are the same file")
  else if isDirectory && start.place.isPrefixOf stop.place then
    some (octets "cannot move " ++ quoted journey.source ++
      octets " to a subdirectory of itself, " ++ quoted journey.target)
  else
    match stop.node with
    | some .directory =>
        if !isDirectory then
          some (octets "cannot overwrite directory " ++ quoted journey.target ++
            octets " with non-directory")
        else if (world.tree.children stop.place).isEmpty then none
        else some (octets "cannot overwrite " ++ quoted journey.target ++
          octets ": Directory not empty")
    | some _ =>
        if isDirectory then
          some (octets "cannot overwrite non-directory " ++ quoted journey.target ++
            octets " with directory " ++ quoted journey.source)
        else none
    | none => none

def move (program : Value) (request : Request) (journey : Journey) : Running Bool := do
  let world := (← get).world
  let unmoved := octets "cannot move " ++ quoted journey.source ++ octets " to " ++
    quoted journey.target ++ octets ": "
  let fails (message : Value) : Running Bool := do
    complain program message
    pure false
  match spotAt world journey.source with
  | .error fault =>
      complainAt program "cannot stat " journey.source fault
      pure false
  | .ok ⟨_, none⟩ =>
      complainAt program "cannot stat " journey.source (.system .notFound)
      pure false
  | .ok start =>
      let stop? := (spotAt world journey.target).toOption
      let isPresent := (stop?.bind (·.node)).isSome
      if isPresent && request.last? "fin" = some 'n' then
        fails (octets "not replacing " ++ quoted journey.target)
      else
        match stop?.bind (moveComplaint? world journey start) with
        | some complaint => fails complaint
        | none =>
            match ← change (Disk.Change.rename (Octets.toText journey.source)
              (Octets.toText journey.target)) with
            | none =>
                if request.has 'v' then tellArrival "renamed " journey
                pure true
            | some fault => fails (unmoved ++ reason fault)

def mv (program : Value) (arguments : List Value) : Running Nat :=
  let words := [("force", 'f'), ("interactive", 'i'), ("no-clobber", 'n'), ("verbose", 'v'),
    ("target-directory", 't'), ("no-target-directory", 'T'), ("update", 'u')]
  withRequest ⟨"bfinTuvZ", "tS", words, false⟩ 1 program arguments fun request => do
    match ← journeys program request false with
    | .error status => pure status
    | .ok all => forEach all (move program request)

def linkNode (world : World) (request : Request) (source : Value) : Except Value Node :=
  if request.has 's' then .ok (.link (Octets.toText source))
  else
    let spot := if request.has 'L' then world.locate (Octets.toText source)
      else spotAt world source
    let unreached := octets "failed to access " ++ quoted source ++ octets ": "
    match spot with
    | .error fault => .error (unreached ++ reason fault)
    | .ok ⟨_, none⟩ => .error (unreached ++ reason (.system .notFound))
    | .ok ⟨_, some .directory⟩ =>
        .error (shownPath source ++ octets ": hard link not allowed for directory")
    | .ok ⟨_, some node⟩ => .ok node

def link (program : Value) (request : Request) (journey : Journey) : Running Bool := do
  let world := (← get).world
  let fails (message : Value) : Running Bool := do
    complain program message
    pure false
  match linkNode world request journey.source with
  | .error complaint => fails complaint
  | .ok node =>
      let kind := if request.has 's' then "symbolic" else "hard"
      let unmade := "failed to create " ++ kind ++ " link "
      match world.locateEntry (Octets.toText journey.target) with
      | .error fault =>
          complainAt program unmade journey.target fault
          pure false
      | .ok ⟨place, present⟩ =>
          let isReplaced := request.has 'f' && present.isSome
          if isReplaced && present = some .directory then
            fails (shownPath journey.target ++ octets ": cannot overwrite directory")
          else if isReplaced && isSame world journey then
            fails (quoted journey.source ++ octets " and " ++ quoted journey.target ++
              octets " are the same file")
          else if present.isSome && !isReplaced then
            complainAt program unmade journey.target (.system .alreadyExists)
            pure false
          else if present.isNone && endsInSlash journey.target then
            complainAt program unmade journey.target (.system .notFound)
            pure false
          else
            modify fun machine => { machine with world.tree := world.tree.put place node }
            if request.has 's' && request.has 'v' then
              tellArrival "" ⟨journey.target, journey.source⟩
            else if request.has 'v' then
              tell (quoted journey.target ++ octets " => " ++ quoted journey.source)
            pure true

def ln (program : Value) (arguments : List Value) : Running Nat :=
  let words := [("symbolic", 's'), ("force", 'f'), ("no-dereference", 'n'), ("verbose", 'v'),
    ("target-directory", 't'), ("no-target-directory", 'T'), ("logical", 'L'), ("physical", 'P'),
    ("interactive", 'i'), ("relative", 'r')]
  withRequest ⟨"bdfFiLnPrsTv", "tS", words, false⟩ 1 program arguments fun request => do
    match ← journeys program request true with
    | .error status => pure status
    | .ok all => forEach all (link program request)

end Stubwright.Shell.Utility
