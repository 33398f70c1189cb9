import Stubwright.Shell.Builtin.Arguments

namespace Stubwright.Shell

open Disk Text

def tidyPath (directory target : Value) : Value :=
  let whole :=
    if target.head? = some '/' then target
    else if directory.getLast? = some '/' then directory ++ target
    else directory ++ '/' :: target
  let hasTwo := (whole.takeWhile (· = '/')).length = 2
  let names := (cut '/' whole).foldl (fun names piece =>
    if piece.isEmpty || piece = ['.'] then names
    else if piece = ['.', '.'] then names.dropLast
    else names ++ [piece]) []
  let path := if names.isEmpty then ['/'] else names.flatMap ('/' :: ·)
  if hasTwo then '/' :: path else path

def enter (path : Value) (isPhysical : Bool) : Running Bool := do
  let machine ← get
  let target := if isPhysical then path else tidyPath machine.process.directory path
  match machine.world.locate (Octets.toText target) with
  | .ok ⟨place, some .directory⟩ =>
      let old := machine.process.directory
      let directory := if isPhysical then octets (World.absolutePath place) else target
      set { machine with
        world.workingDirectory := place
        process := { machine.process with directory } }
      assign "OLDPWD" old
      assign "PWD" directory
      changeProcess fun process =>
        ["OLDPWD", "PWD"].foldl (fun process name =>
          match process.stored? name with
          | some entry => process.setVariable name { entry with isExported := true }
          | none => process) process
      pure true
  | _ => pure false

def changeDirectory (arguments : List Value) : Running Nat := do
  let (options, arguments) ← letters "LP" arguments
  let process ← process
  let isPhysical := options.getLast? = some 'P'
  let (target, isShown) := match arguments.head? with
    | none => ((process.value? "HOME").getD [], false)
    | some ['-'] => ((process.value? "OLDPWD").getD [], true)
    | some target => (target, false)
  let isFixed := !target.isEmpty &&
    (cut '/' target).head?.any fun first => [[], ['.'], ['.', '.']].contains first
  let target := if target.isEmpty then ['.'] else target
  let fronts :=
    if isFixed then [[]] else cut ':' ((process.value? "CDPATH").getD []) ++ [[]]
  let world := (← get).world
  let candidates := fronts.map fun front =>
    (front, if front.isEmpty then target else front ++ '/' :: target)
  let chosen := candidates.find? fun (_, path) => world.isDirectory (Octets.toText path)
  let (front, path) := chosen.getD ([], target)
  if !(← enter path isPhysical) then fail (octets "can't cd to " ++ target)
  if isShown || !front.isEmpty then say (((← Shell.process).directory) ++ ['\n']) else pure 0

def workingDirectory (arguments : List Value) : Running Nat := do
  let (options, _) ← letters "LP" arguments
  let machine ← get
  let place := octets (World.absolutePath machine.world.workingDirectory)
  say ((if options.getLast? = some 'P' then place else machine.process.directory) ++ ['\n'])

end Stubwright.Shell
