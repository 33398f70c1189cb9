/-!
What is on a disk: directories, files with their content, links, and devices, each at a place. A
place is the list of names on the way from the root, which is always a directory. `node?` is the
view of a tree; the statement at the end says what `put` does to it.
-/
namespace Stubwright.Disk

/-- Devices, by what becomes of what is written to them. -/
inductive Device where
  /-- Everything is swallowed. -/
  | sink
  /-- There is room for nothing. -/
  | full
deriving DecidableEq, Repr

def Device.canHold : Device → List UInt8 → Bool
  | sink, _ => true
  | full, content => content.isEmpty

inductive Node where
  | directory
  | file (content : List UInt8) (isExecutable : Bool)
  | link (target : String)
  | device (device : Device)
deriving DecidableEq, Repr

abbrev Place := List String

structure Tree where
  entries : List (Place × Node)
deriving DecidableEq, Repr

namespace Tree

def empty : Tree := ⟨[]⟩

def node? (tree : Tree) : Place → Option Node
  | [] => some .directory
  | place => tree.entries.lookup place

def putIn (place : Place) (node : Node) : List (Place × Node) → List (Place × Node)
  | [] => [(place, node)]
  | entry :: others =>
      if place == entry.1 then (place, node) :: others else entry :: putIn place node others

def put (tree : Tree) (place : Place) (node : Node) : Tree :=
  ⟨putIn place node tree.entries⟩

def remove (tree : Tree) (place : Place) : Tree :=
  ⟨tree.entries.filter fun entry => !place.isPrefixOf entry.1⟩

def nameBelow? (place : Place) (entry : Place × Node) : Option String :=
  match entry.1.reverse with
  | name :: above => if above.reverse = place then some name else none
  | [] => none

def children (tree : Tree) (place : Place) : List String :=
  (tree.entries.filterMap (nameBelow? place)).mergeSort fun a b => decide (a ≤ b)

def namesBelow (tree : Tree) (place : Place) : List String :=
  tree.entries.filterMap fun entry =>
    if place.isPrefixOf entry.1 then (entry.1.drop place.length).head? else none

def move (tree : Tree) (source target : Place) : Tree :=
  let moved := tree.entries.filter fun entry => source.isPrefixOf entry.1
  moved.foldl (fun tree entry => tree.put (target ++ entry.1.drop source.length) entry.2)
    ((tree.remove target).remove source)

theorem lookup_putIn (place other : Place) (node : Node) (entries : List (Place × Node)) :
    (putIn place node entries).lookup other =
      if other = place then some node else entries.lookup other := by
  induction entries with
  | nil =>
      rw [putIn, List.lookup_cons]
      by_cases same : other = place
      · simp [same]
      · rw [beq_false_of_ne same, if_neg same]
  | cons entry others ih =>
      obtain ⟨here, old⟩ := entry
      by_cases found : place = here
      · subst found
        rw [putIn, if_pos (by simp), List.lookup_cons, List.lookup_cons]
        by_cases same : other = place
        · simp [same]
        · rw [beq_false_of_ne same, if_neg same]
      · rw [putIn, if_neg (by simpa using found), List.lookup_cons, List.lookup_cons, ih]
        by_cases same : other = place
        · simp [same, beq_false_of_ne found]
        · rw [if_neg same, if_neg same]

theorem node?_put (tree : Tree) {place : Place} (inside : place ≠ []) (node : Node)
    (other : Place) :
    (tree.put place node).node? other = if other = place then some node else tree.node? other := by
  cases other with
  | nil => simp [node?, inside.symm]
  | cons name rest => simp [node?, put, lookup_putIn]

end Tree

end Stubwright.Disk
