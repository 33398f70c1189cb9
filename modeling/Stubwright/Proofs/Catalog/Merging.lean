import Stubwright.Catalog.Basic
import Mathlib.Data.List.Nodup

/-!
What catalogs know after declarations were put in and after they were merged. The first declaration
of a name decides, so merging is a choice between two answers for each name: the order in which the
second catalog hands over its declarations does not show.
-/
namespace Stubwright.Catalog

variable {catalog first second third : Catalog} {declarations order : List Declaration}
  {declaration : Declaration} {name : String}

theorem find?_empty (name : String) : empty.find? name = none := rfl

theorem find?_insert_eq_or (catalog : Catalog) (declaration : Declaration) (name : String) :
    (catalog.insert declaration).find? name =
      (catalog.find? name).or
        (if name = declaration.name then some declaration.normalized else none) := by
  cases known : catalog.find? declaration.name with
  | none =>
      rw [find?_insert known]
      by_cases same : name = declaration.name
      · rw [if_pos same, if_pos same, same, known, Option.none_or]
      · rw [if_neg same, if_neg same, Option.or_none]
  | some earlier =>
      have kept : catalog.insert declaration = catalog := by
        unfold insert
        split
        · rfl
        · rename_i absent
          rw [known] at absent
          contradiction
      rw [kept]
      by_cases same : name = declaration.name
      · rw [same, known, Option.some_or]
      · rw [if_neg same, Option.or_none]

/-- Several declarations in turn: what was known stays, then the first one of the name counts. -/
theorem find?_foldl_insert (declarations : List Declaration) (catalog : Catalog) (name : String) :
    (declarations.foldl insert catalog).find? name =
      (catalog.find? name).or
        ((declarations.find? (·.name == name)).map Declaration.normalized) := by
  induction declarations generalizing catalog with
  | nil => rw [List.foldl_nil, List.find?_nil, Option.map_none, Option.or_none]
  | cons declaration others ih =>
      have step : ((declaration :: others).find? (·.name == name)).map Declaration.normalized =
          (if name = declaration.name then some declaration.normalized else none).or
            ((others.find? (·.name == name)).map Declaration.normalized) := by
        by_cases same : name = declaration.name
        · rw [List.find?_cons_of_pos (by simp [same]), if_pos same, Option.map_some, Option.some_or]
        · rw [List.find?_cons_of_neg (by simpa using Ne.symm same), if_neg same, Option.none_or]
      rw [List.foldl_cons, ih, find?_insert_eq_or, step, Option.or_assoc]

theorem find?_ofDeclarations (declarations : List Declaration) (name : String) :
    (ofDeclarations declarations).find? name =
      (declarations.find? (·.name == name)).map Declaration.normalized := by
  rw [ofDeclarations, find?_foldl_insert, find?_empty, Option.none_or]

theorem find?_eq_some_iff_of_nodup (distinct : (declarations.map Declaration.name).Nodup) :
    declarations.find? (·.name == name) = some declaration ↔
      declaration ∈ declarations ∧ declaration.name = name := by
  constructor
  · intro found
    exact ⟨List.mem_of_find?_eq_some found, by simpa using List.find?_some found⟩
  · rintro ⟨member, rfl⟩
    induction declarations with
    | nil => contradiction
    | cons head others ih =>
        rw [List.map_cons, List.nodup_cons] at distinct
        rcases List.mem_cons.mp member with rfl | later
        · exact List.find?_cons_of_pos (by simp)
        · have other : head.name ≠ declaration.name := fun same =>
            distinct.1 (same ▸ List.mem_map_of_mem later)
          rw [List.find?_cons_of_neg (by simpa using other)]
          exact ih distinct.2 later

theorem find?_of_perm (arranged : order.Perm catalog.declarations) (name : String) :
    order.find? (·.name == name) = catalog.find? name := by
  have distinct : (order.map Declaration.name).Nodup :=
    (arranged.map Declaration.name).nodup_iff.mpr catalog.distinct
  apply Option.ext
  intro declaration
  rw [find?, find?_eq_some_iff_of_nodup distinct, find?_eq_some_iff_of_nodup catalog.distinct,
    arranged.mem_iff]

/-- Putting in all declarations of another catalog, whatever their order, lets it answer for the
names that were unknown. Its declarations are normalized already. -/
theorem find?_foldl_of_perm (arranged : order.Perm second.declarations) (name : String) :
    (order.foldl insert first).find? name = (first.find? name).or (second.find? name) := by
  rw [find?_foldl_insert, find?_of_perm arranged]
  cases found : second.find? name with
  | none => rfl
  | some declaration => rw [Option.map_some, normalized_of_find? found]

theorem find?_merge (first second : Catalog) (name : String) :
    (first.merge second).find? name = (first.find? name).or (second.find? name) :=
  find?_foldl_of_perm (.refl _) name

theorem find?_merge_assoc (first second third : Catalog) (name : String) :
    ((first.merge second).merge third).find? name =
      (first.merge (second.merge third)).find? name := by
  rw [find?_merge, find?_merge, find?_merge, find?_merge, Option.or_assoc]

theorem find?_empty_merge (catalog : Catalog) (name : String) :
    (empty.merge catalog).find? name = catalog.find? name := by
  rw [find?_merge, find?_empty, Option.none_or]

theorem find?_merge_empty (catalog : Catalog) (name : String) :
    (catalog.merge empty).find? name = catalog.find? name := by
  rw [find?_merge, find?_empty, Option.or_none]

def Apart (first second : Catalog) : Prop :=
  ∀ name, first.find? name = none ∨ second.find? name = none

theorem Apart.find?_merge_comm (apart : first.Apart second) (name : String) :
    (first.merge second).find? name = (second.merge first).find? name := by
  rw [find?_merge, find?_merge]
  rcases apart name with unknown | unknown <;> rw [unknown, Option.none_or, Option.or_none]

def mergeAll (catalogs : List Catalog) : Catalog :=
  catalogs.foldl merge empty

/-- Of several merged catalogs the first that knows a name answers. -/
theorem find?_foldl_merge (catalogs : List Catalog) (catalog : Catalog) (name : String) :
    (catalogs.foldl merge catalog).find? name =
      (catalog.find? name).or (catalogs.findSome? (·.find? name)) := by
  induction catalogs generalizing catalog with
  | nil => rw [List.foldl_nil, List.findSome?_nil, Option.or_none]
  | cons next others ih =>
      have step : (next :: others).findSome? (·.find? name) =
          (next.find? name).or (others.findSome? (·.find? name)) := by
        rw [List.findSome?_cons]
        cases next.find? name <;> rfl
      rw [List.foldl_cons, ih, find?_merge, step, Option.or_assoc]

theorem find?_mergeAll (catalogs : List Catalog) (name : String) :
    (mergeAll catalogs).find? name = catalogs.findSome? (·.find? name) := by
  rw [mergeAll, find?_foldl_merge, find?_empty, Option.none_or]

end Stubwright.Catalog
