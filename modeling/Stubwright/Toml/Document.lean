import Stubwright.Toml.Scalar
import Stubwright.Toml.Table

namespace Stubwright.Toml

mutual

def valueAtFront : (steps depth : Nat) → List Char → Option (Json × List Char)
  | 0, _, _ => none
  | steps + 1, depth, text =>
      match stringAtFront text with
      | some reading => reading.map fun (content, rest) => (.ofString (String.ofList content), rest)
      | none =>
          match text, depth with
          | '[' :: rest, depth + 1 => do
              let (items, rest) ← arrayItems steps depth rest
              pure (.ofList items, rest)
          | '\x7b' :: rest, depth + 1 => do
              let (table, rest) ← inlinePairs steps depth true .empty rest
              pure (table.toJson, rest)
          | text, _ => scalar text

def arrayItems : (steps depth : Nat) → List Char → Option (List Json × List Char)
  | 0, _, _ => none
  | steps + 1, depth, text =>
      match skipSpace text.length text with
      | ']' :: rest => some ([], rest)
      | text => do
          let (first, rest) ← valueAtFront steps depth text
          match skipSpace rest.length rest with
          | ',' :: rest =>
              let (others, rest) ← arrayItems steps depth rest
              pure (first :: others, rest)
          | ']' :: rest => pure ([first], rest)
          | _ => none

def inlinePairs : (steps depth : Nat) → (isFirst : Bool) → Table → List Char →
    Option (Table × List Char)
  | 0, _, _, _, _ => none
  | steps + 1, depth, isFirst, table, text =>
      match skipBlanks text, isFirst with
      | '\x7d' :: rest, true => some (table, rest)
      | text, _ => do
          let (path, rest) ← keyAtFront text
          let rest ← expect '=' rest
          let (value, rest) ← valueAtFront steps depth (skipBlanks rest)
          let table ← table.addValue path value
          match skipBlanks rest with
          | ',' :: rest => inlinePairs steps depth false table rest
          | '\x7d' :: rest => pure (table, rest)
          | _ => none

end

/-- What was read of a document: its table, and the path of the table that pairs are added to. -/
structure Draft where
  root : Table
  current : List String

namespace Draft

def addPair (draft : Draft) (path : List String) (value : Json) : Option Draft :=
  (draft.root.changeAt false (Table.addValue path value) draft.current).map fun root =>
    { draft with root }

def openTable (draft : Draft) (path : List String) : Option Draft :=
  (draft.root.openTable path).map (⟨·, path⟩)

def openElement (draft : Draft) (path : List String) : Option Draft :=
  (draft.root.openElement path).map (⟨·, path⟩)

end Draft

def lineAtFront (draft : Draft) (text : List Char) : Option (Draft × List Char) :=
  match text with
  | '[' :: '[' :: rest => do
      let (path, rest) ← keyAtFront rest
      let rest ← expect ']' (← expect ']' rest)
      pure (← draft.openElement path, rest)
  | '[' :: rest => do
      let (path, rest) ← keyAtFront rest
      let rest ← expect ']' rest
      pure (← draft.openTable path, rest)
  | text => do
      let (path, rest) ← keyAtFront text
      let rest ← expect '=' rest
      let (value, rest) ← valueAtFront (2 * text.length) (depthLimit - 1) (skipBlanks rest)
      pure (← draft.addPair path value, rest)

def linesFrom : (steps : Nat) → Draft → List Char → Option Draft
  | 0, _, _ => none
  | _ + 1, draft, [] => some draft
  | steps + 1, draft, text =>
      match lineEnd text with
      | some rest => linesFrom steps draft rest
      | none => do
          let (draft, rest) ← lineAtFront draft (skipBlanks text)
          linesFrom steps draft (← lineEnd rest)

/-- A mark of the byte order in front of a document does not count. -/
def withoutMark : List Char → List Char
  | '\ufeff' :: rest => rest
  | text => text

def ofText? (source : String) : Option Json :=
  let text := withoutMark source.toList
  (linesFrom (text.length + 1) ⟨.empty, []⟩ text).map (·.root.toJson)

end Stubwright.Toml
