import Stubwright.Text.Pieces

/-!
Paths as text. A path is cut into segments at slashes; empty segments and single periods name no
component, except for a period at the very front. `join` keeps what it is given, so a path joined
with an empty one ends in a slash.
-/
namespace Stubwright.Disk.Path

open Text

def isAbsolute (path : String) : Bool :=
  path.toList.head? == some '/'

/-- The second path as seen from the first. -/
def join (base more : String) : String :=
  if isAbsolute more then more
  else if base.isEmpty || base.toList.getLast? == some '/' then base ++ more
  else base ++ "/" ++ more

def ofSegments (segments : List String) : String :=
  segments.foldl join ""

def pieces (path : String) : List String :=
  (cut '/' path.toList).map String.ofList

def searchDirectories (searchPath : String) : List String :=
  (cut ':' searchPath.toList).map String.ofList

def isComponent (piece : String) : Bool :=
  piece != "" && piece != "."

def components (path : String) : List String :=
  match pieces path with
  | [] => []
  | first :: rest =>
      if isAbsolute path then "/" :: rest.filter isComponent
      else (if first = "" then [] else [first]) ++ rest.filter isComponent

def trimPieces (pieces : List String) : List String :=
  (pieces.reverse.dropWhile (!isComponent ·)).reverse

/-- The path without its last component; nothing if there is none but a root. -/
def parent? (path : String) : Option String :=
  match pieces path with
  | [] => none
  | first :: rest =>
      match (trimPieces rest).dropLast, trimPieces rest with
      | _, [] => if isAbsolute path || first = "" then none else some ""
      | front, _ =>
          let kept := trimPieces front
          if isAbsolute path && kept.isEmpty then some "/"
          else some ("/".intercalate (first :: kept))

/-- The path and everything above it, with the path itself first. `steps` bounds their number. -/
def ancestorsWithin : (steps : Nat) → String → List String
  | 0, path => [path]
  | steps + 1, path =>
      match parent? path with
      | none => [path]
      | some above => path :: ancestorsWithin steps above

def ancestors (path : String) : List String :=
  ancestorsWithin path.length path

/-- The last component, unless it leads upwards or is the root. -/
def fileName? (path : String) : Option String :=
  match (components path).getLast? with
  | some name => if name = "/" || name = "." || name = ".." then none else some name
  | none => none

/-- The last component up to its last period, and what follows the period. A period in front of
everything else starts no extension. -/
def splitExtension (name : String) : String × Option String :=
  match cutLast '.' name.toList with
  | some (stem, extension) =>
      if stem.isEmpty then (name, none) else (String.ofList stem, some (String.ofList extension))
  | none => (name, none)

def extension? (path : String) : Option String :=
  (fileName? path).bind fun name => (splitExtension name).2

def withExtension (path extension : String) : String :=
  match fileName? path, parent? path with
  | some name, some above => join above ((splitExtension name).1 ++ "." ++ extension)
  | _, _ => path

end Stubwright.Disk.Path
