import Stubwright.Shell.Expansion

namespace Stubwright.Shell

open Disk Text

/-- A redirection whose target is worked out. A text that the script brings along is worked out only
when it is asked for. -/
structure Redirection where
  descriptor : Nat
  direction : Direction
  target : Running Value

def prepareFile (direction : Direction) (keepsFiles : Bool) (path : String) (world : World) :
    Except SystemFault World :=
  let isThere := world.pathExists path
  let written : Except SystemFault World :=
    match Change.writeFile path [] world with
    | .ok after => .ok after
    | .error (.system fault) => .error fault
    | .error _ => .error .notFound
  match direction with
  | .write => if keepsFiles && world.isFile path then .error .alreadyExists else written
  | .overwrite => written
  | .append | .readWrite =>
      if world.isFile path then .ok world else written
  | _ => if isThere then .ok world else
      match world.locate path with
      | .error (.system fault) => .error fault
      | _ => .error .notFound

def openPath (direction : Direction) (path : String) : Running (Except SystemFault Nat) := do
  match descriptorAt? path with
  | some descriptor =>
      match ← channelOf? descriptor with
      | some channel => pure (.ok channel)
      | none => pure (.error .notFound)
  | none =>
      let machine ← get
      match machine.world.locate path with
      | .ok ⟨_, some (.device .sink)⟩ => pure (.ok (← openChannel .nothing))
      | .ok ⟨place, some (.device .full)⟩ =>
          pure (.ok (← openChannel (.file place 0 false false false)))
      | _ =>
          match prepareFile direction machine.process.options.keepsFiles path machine.world with
          | .error fault => pure (.error fault)
          | .ok world =>
              modify fun machine => { machine with world }
              match world.locate path with
              | .ok spot =>
                  let appends := direction = .append
                  let canRead := direction = .read || direction = .readWrite
                  let canWrite := direction != .read
                  pure (.ok (← openChannel (.file spot.place 0 appends canRead canWrite)))
              | .error _ => pure (.error .notFound)

def openingFault (opens : Bool) (fault : SystemFault) : String :=
  match fault with
  | .notFound | .notDirectory => if opens then "No such file" else "Directory nonexistent"
  | fault => fault.description

def redirect (redirection : Redirection) : Running Unit := do
  let target ← redirection.target
  match redirection.direction with
  | .document =>
      let content := (Octets.toBytes target).toArray
      setDescriptor redirection.descriptor (some (← openChannel (.stream content 0)))
  | .copy =>
      match target with
      | ['-'] => setDescriptor redirection.descriptor none
      | target =>
          let other := (String.ofList target).toNat?.getD 0
          match ← channelOf? other with
          | some channel => setDescriptor redirection.descriptor (some channel)
          | none => fail (target ++ octets ": Bad file descriptor")
  | direction =>
      match ← openPath direction (Octets.toText target) with
      | .ok channel => setDescriptor redirection.descriptor (some channel)
      | .error fault =>
          let opens := direction = .read
          let verb := if opens then "open " else "create "
          let reason := openingFault opens fault
          fail (octets ("cannot " ++ verb) ++ target ++ octets (": " ++ reason))

/-- The redirections with their targets. Descriptors are given by one digit, or by a minus sign for
none. -/
def redirectionsOf (outputOf : Command → Running Value) :
    List (Nat × Direction × Word) → Running (List Redirection)
  | [] => pure []
  | (descriptor, .document, word) :: others => do
      pure (⟨descriptor, .document, wordText outputOf word⟩ :: (← redirectionsOf outputOf others))
  | (descriptor, direction, word) :: others => do
      let target ← wordText outputOf word
      let isDescriptor := match target with
        | [c] => c.isDigit || c = '-'
        | _ => false
      if direction = .copy && !isDescriptor then
        changeProcess fun process => { process with line := process.lastLine }
        fail (octets "Syntax error: Bad fd number")
      pure (⟨descriptor, direction, pure target⟩ :: (← redirectionsOf outputOf others))

def restore (before : List (Nat × Nat)) (descriptors : List Nat) : Running Unit :=
  changeProcess fun process =>
    let kept := process.descriptors.filter fun entry => !descriptors.contains entry.1
    let old := before.filter fun entry => descriptors.contains entry.1
    { process with descriptors := old ++ kept }

def redirected (redirections : List Redirection) (running : Running α) : Running (Option α) := do
  let before := (← process).descriptors
  let descriptors := redirections.map (·.descriptor)
  match ← attempt (redirections.forM redirect) with
  | .error ending =>
      restore before descriptors
      if ending = .failed then pure none else throw ending
  | .ok () =>
      let result ← attempt running
      restore before descriptors
      match result with
      | .ok value => pure (some value)
      | .error ending => throw ending

end Stubwright.Shell
