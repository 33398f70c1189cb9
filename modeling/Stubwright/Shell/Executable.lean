import Stubwright.Shell.Utility.Table

namespace Stubwright.Shell

open Disk Text

def defaultPath : String := "/bin:/usr/bin"

def candidates (searchPath program : String) : List String :=
  if program.toList.contains '/' || program.isEmpty then [program]
  else (Path.searchDirectories searchPath).map fun directory => Path.join directory program

def mark : List UInt8 := [0x7f, 0x45, 0x4c, 0x46]

def shellNames : List String := ["sh", "dash", "bash", "ash"]

def systemPrograms : List String :=
  "env" :: shellNames ++ Utility.names

def devices : List (String × Device) :=
  [("null", .sink), ("zero", .sink), ("tty", .sink), ("random", .sink), ("urandom", .sink),
    ("full", .full), ("stdin", .sink), ("stdout", .sink), ("stderr", .sink)]

def systemDirectories : List Place :=
  ["dev", "etc", "home", "opt", "proc", "root", "run", "srv", "sys", "usr", "var"].map ([·]) ++
    ["bin", "lib", "local", "sbin", "share"].map (["usr", ·])

def systemLinks : List String :=
  ["bin", "lib", "sbin"]

def systemNodes : List (Place × Node) :=
  systemDirectories.map (·, .directory) ++
    systemLinks.map (fun name => ([name], .link ("usr/" ++ name))) ++
    devices.map (fun (name, device) => (["dev", name], .device device)) ++
    systemPrograms.map fun name =>
      (["usr", "bin", name], .file (mark ++ Utf8.encodeString name) true)

/-- A tree with what every disk holds. -/
def withSystem (tree : Tree) : Tree :=
  systemNodes.foldl (fun tree (place, node) =>
    if (tree.node? place).isSome then tree else tree.put place node) tree

def interpreter? (content : List UInt8) : Option (Value × Option Value) :=
  match content with
  | 0x23 :: 0x21 :: rest =>
      let isBlank (c : Char) : Bool := c = ' ' || c = '\t'
      let line := Octets.ofBytes (rest.takeWhile fun byte => byte != 10 && byte != 0)
      let line := ((line.dropWhile isBlank).reverse.dropWhile isBlank).reverse
      let named := line.takeWhile fun c => !isBlank c
      let argument := (line.dropWhile fun c => !isBlank c).dropWhile isBlank
      if named.isEmpty then none else some (named, if argument.isEmpty then none else some argument)
  | _ => none

def executableContent (world : World) (path : String) : Except Fault (List UInt8) :=
  match world.locate path with
  | .error fault => .error fault
  | .ok ⟨_, some (.file content true)⟩ => .ok content
  | .ok ⟨_, some _⟩ => .error (.system .permissionDenied)
  | .ok ⟨_, none⟩ => .error (.system .notFound)

structure Invocation where
  program : String
  words : List Value
deriving DecidableEq, Repr

def mostInterpreters : Nat := 5

/-- What runs if a file is executed. An interpreter gets the path of what it interprets in place of
the name that it was called by. -/
def invocation (world : World) : (interpreters : Nat) → (path : String) → (words : List Value) →
    Except Fault Invocation
  | 0, _, _ => .error (.system .linkLoop)
  | interpreters + 1, path, words =>
      match executableContent world path with
      | .error fault => .error fault
      | .ok content =>
          if mark.isPrefixOf content then
            let name := String.ofList (Utf8.decodeLossy (content.drop mark.length))
            if systemPrograms.contains name then .ok ⟨name, words⟩
            else .error (.system .badExecutable)
          else
            match interpreter? content with
            | none => .error (.system .badExecutable)
            | some (interpreter, argument) =>
                invocation world interpreters (Octets.toText interpreter)
                  (interpreter :: argument.toList ++ octets path :: words.drop 1)

def sampleSize : Nat := 128

def isBinary (byte : UInt8) : Bool :=
  byte < 9 || (16 ≤ byte && byte < 32 && byte != 27) || byte = 127

def isText (content : List UInt8) : Bool :=
  !((content.take sampleSize).takeWhile (· != 10)).any isBinary

/-- The first candidate that can be run. One that is not there or may not be run does not end the
search. For a content that names no interpreter there may be one in `fallback`. -/
def firstInvocation (world : World) (fallback : List UInt8 → Option String) (words : List Value) :
    (denied : Bool) → List String → Except Fault Invocation
  | denied, [] => .error (.system (if denied then .permissionDenied else .notFound))
  | denied, path :: others =>
      match invocation world mostInterpreters path words with
      | .ok invocation => .ok invocation
      | .error (.system .notFound) | .error (.system .notDirectory) =>
          firstInvocation world fallback words denied others
      | .error (.system .permissionDenied) => firstInvocation world fallback words true others
      | .error (.system .badExecutable) =>
          match (executableContent world path).toOption.bind fallback with
          | some interpreter =>
              invocation world mostInterpreters interpreter
                (octets interpreter :: octets path :: words.drop 1)
          | none => .error (.system .badExecutable)
      | .error fault => .error fault

end Stubwright.Shell
