import Stubwright.Catalog.Document

/-!
Catalogs: declarations by name. A catalog holds each declaration normalized, and of several with one
name the first. Merging a second catalog into one adds the names that it does not have yet.
-/
namespace Stubwright

structure Catalog where
  declarations : List Declaration
  distinct : (declarations.map Declaration.name).Nodup
  normal : ∀ declaration ∈ declarations, declaration.normalized = declaration
deriving Repr

namespace Catalog

def empty : Catalog := ⟨[], by simp, by simp⟩

def find? (catalog : Catalog) (name : String) : Option Declaration :=
  catalog.declarations.find? (·.name == name)

theorem find?_eq_none {catalog : Catalog} {name : String} :
    catalog.find? name = none ↔ name ∉ catalog.declarations.map Declaration.name := by
  simp [find?]

theorem name_of_find? {catalog : Catalog} {name : String} {declaration : Declaration}
    (found : catalog.find? name = some declaration) : declaration.name = name := by
  simpa using List.find?_some found

theorem mem_of_find? {catalog : Catalog} {name : String} {declaration : Declaration}
    (found : catalog.find? name = some declaration) : declaration ∈ catalog.declarations :=
  List.mem_of_find?_eq_some found

theorem normalized_of_find? {catalog : Catalog} {name : String} {declaration : Declaration}
    (found : catalog.find? name = some declaration) : declaration.normalized = declaration :=
  catalog.normal declaration (mem_of_find? found)

/-- Adds a declaration unless its name is known. -/
def insert (catalog : Catalog) (declaration : Declaration) : Catalog :=
  match absent : catalog.find? declaration.name with
  | some _ => catalog
  | none =>
      { declarations := catalog.declarations ++ [declaration.normalized]
        distinct := by
          have fresh := find?_eq_none.mp absent
          simpa [List.nodup_append, catalog.distinct] using fresh
        normal := by
          intro member added
          rcases List.mem_append.mp added with kept | new
          · exact catalog.normal member kept
          · rw [List.mem_singleton.mp new, declaration.normalized_normalized] }

/-- A new name is looked up among the names there were, then it is the one added. -/
theorem find?_insert {catalog : Catalog} {declaration : Declaration}
    (absent : catalog.find? declaration.name = none) (name : String) :
    (catalog.insert declaration).find? name =
      if name = declaration.name then some declaration.normalized else catalog.find? name := by
  have added : (catalog.insert declaration).declarations =
      catalog.declarations ++ [declaration.normalized] := by
    unfold insert
    split
    · rename_i found
      rw [absent] at found
      contradiction
    · rfl
  rw [find?, added, List.find?_append, ← find?]
  by_cases same : name = declaration.name
  · subst same
    simp [absent]
  · have passed : (declaration.name == name) = false := by simpa using Ne.symm same
    simp [same, passed]

def ofDeclarations (declarations : List Declaration) : Catalog :=
  declarations.foldl insert empty

def merge (catalog other : Catalog) : Catalog :=
  other.declarations.foldl insert catalog

def size (catalog : Catalog) : Nat :=
  catalog.declarations.length

def ofJson (json : Json) : Except Json.Fault Catalog :=
  (declarationsOfJson json).map ofDeclarations

def parse (source : String) : Except Json.Fault Catalog :=
  (Json.parse declarationsOfJson source).map ofDeclarations

end Catalog

end Stubwright
