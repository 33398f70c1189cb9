import Stubwright.Json.Basic

/-!
Tables of a TOML document while it is read. A table remembers whether it was only implied by a
longer name and whether keys with periods made it, since that decides who may still add to it.
-/
namespace Stubwright.Toml

inductive Item where
  /-- A value that is complete. -/
  | value (value : Json)
  | table (isImplied isDotted : Bool) (members : List (String × Item))
  /-- Tables that were opened one after the other under one name. -/
  | tables (elements : List (List (String × Item)))

structure Table where
  isImplied : Bool
  isDotted : Bool
  members : List (String × Item)

namespace Table

def empty : Table := ⟨false, false, []⟩

def toItem (table : Table) : Item :=
  .table table.isImplied table.isDotted table.members

def find? (table : Table) (key : String) : Option Item :=
  table.members.lookup key

def putIn (key : String) (item : Item) : List (String × Item) → List (String × Item)
  | [] => [(key, item)]
  | member :: others =>
      if key == member.1 then (key, item) :: others else member :: putIn key item others

def put (table : Table) (key : String) (item : Item) : Table :=
  { table with members := putIn key item table.members }

/-- Changes the table at the end of a path. Tables that are missing on the way are implied; of
tables under one name the last is meant. Keys with periods only go through tables that were implied.
-/
def changeAt (dotted : Bool) (change : Table → Option Table) :
    (path : List String) → Table → Option Table
  | [], table => change table
  | key :: path, table =>
      match table.find? key with
      | none => (changeAt dotted change path ⟨true, dotted, []⟩).map fun inner =>
          table.put key inner.toItem
      | some (.value _) => none
      | some (.tables elements) =>
          match elements.getLast? with
          | none => none
          | some last => (changeAt dotted change path ⟨false, false, last⟩).map fun inner =>
              table.put key (.tables (elements.dropLast ++ [inner.members]))
      | some (.table isImplied isDotted members) =>
          if dotted && !isImplied then none
          else (changeAt dotted change path ⟨isImplied, isDotted, members⟩).map fun inner =>
            table.put key inner.toItem

/-- Adds a value under a key that is not taken. Keys with periods add to tables of such keys alone,
simple keys to all others. -/
def addValue (path : List String) (value : Json) (table : Table) : Option Table :=
  match path.getLast? with
  | none => none
  | some key =>
      let above := path.dropLast
      changeAt true
        (fun inner =>
          if inner.isDotted = above.isEmpty then none
          else
            match inner.find? key with
            | some _ => none
            | none => some (inner.put key (.value value)))
        above table

/-- Opens the table of a header, which may have been implied but not opened before. -/
def openTable (path : List String) (root : Table) : Option Table :=
  match path.getLast? with
  | none => none
  | some key =>
      changeAt false
        (fun parent =>
          match parent.find? key with
          | none => some (parent.put key (.table false false []))
          | some (.table true false members) => some (parent.put key (.table false false members))
          | some _ => none)
        path.dropLast root

def openElement (path : List String) (root : Table) : Option Table :=
  match path.getLast? with
  | none => none
  | some key =>
      changeAt false
        (fun parent =>
          match parent.find? key with
          | none => some (parent.put key (.tables [[]]))
          | some (.tables elements) => some (parent.put key (.tables (elements ++ [[]])))
          | some _ => none)
        path.dropLast root

end Table

mutual

def Item.toJson : Item → Json
  | .value value => value
  | .table _ _ members => .object (membersToJson members)
  | .tables elements => .array (elementsToJson elements)

def membersToJson : List (String × Item) → Json.Members
  | [] => .closed
  | (key, item) :: others => .member (.ok key) item.toJson (membersToJson others)

def elementsToJson : List (List (String × Item)) → Json.Items
  | [] => .closed
  | members :: others => .item (.object (membersToJson members)) (elementsToJson others)

end

def Table.toJson (table : Table) : Json :=
  .object (membersToJson table.members)

end Stubwright.Toml
