import Stubwright.Hierarchy.Assembly
import Mathlib.Data.List.Nodup
import Mathlib.Logic.Relation

/-!
Types and their supertypes. `HasLineage` says which lineage a type has without saying how it is
found: no path is kept and no depth is counted. A type that has one has only one, and none of its
supertypes inherits from it, so a bounded number of levels holds all of them.
-/
namespace Stubwright

/-- The direct supertypes, in the order in which they are looked up. -/
def Declaration.supertypes (declaration : Declaration) : List String :=
  declaration.superclass.toList ++ declaration.interfaces

theorem Declaration.mem_supertypes_of_superclass {declaration : Declaration} {parent : String}
    (extended : declaration.superclass = some parent) : parent ∈ declaration.supertypes :=
  List.mem_append_left _ (Option.mem_toList.mpr extended)

theorem Declaration.mem_supertypes_of_interface {declaration : Declaration} {parent : String}
    (listed : parent ∈ declaration.interfaces) : parent ∈ declaration.supertypes :=
  List.mem_append_right _ listed

/-- The lineage of a declaration depends on what its own supertypes hand down, and on no other. -/
theorem Declaration.lineage_congr {declaration : Declaration} {left right : String → Option Lineage}
    (agree : ∀ parent ∈ declaration.supertypes, left parent = right parent) :
    declaration.lineage (declaration.superclass.bind left)
        (declaration.interfaces.filterMap left) =
      declaration.lineage (declaration.superclass.bind right)
        (declaration.interfaces.filterMap right) := by
  have superclass : declaration.superclass.bind left = declaration.superclass.bind right := by
    cases extended : declaration.superclass with
    | none => rfl
    | some parent => exact agree parent (mem_supertypes_of_superclass extended)
  have interfaces : declaration.interfaces.filterMap left =
      declaration.interfaces.filterMap right :=
    List.filterMap_congr fun parent listed =>
      agree parent (mem_supertypes_of_interface listed)
  rw [superclass, interfaces]

namespace Source

variable {source : Source} {name parent : String} {lineage : Lineage} {path : List String}

def Extends (source : Source) (name parent : String) : Prop :=
  ∃ declaration, source.lookup name = .ok (some declaration) ∧ parent ∈ declaration.supertypes

/-- A type has another above it, over any number of links but none. -/
def Inherits (source : Source) : String → String → Prop :=
  Relation.TransGen source.Extends

def Reaches (source : Source) : String → String → Prop :=
  Relation.ReflTransGen source.Extends

theorem Extends.knows (extended : source.Extends name parent) : source.Knows name :=
  let ⟨declaration, found, _⟩ := extended
  ⟨declaration, found⟩

theorem unknown_extends_nothing (unknown : source.lookup name = .ok none) :
    ¬ source.Extends name parent := by
  rintro ⟨declaration, found, _⟩
  simp [found] at unknown

/-- A type has a lineage if it is declared and each of its supertypes has one. Only the root class
may be missing among them. -/
inductive HasLineage (source : Source) : String → Lineage → Prop
  | declared {name : String} {declaration : Declaration}
      (found : source.lookup name = .ok (some declaration))
      (handed : String → Option Lineage)
      (known : ∀ parent ∈ declaration.supertypes, ∀ lineage,
        handed parent = some lineage → HasLineage source parent lineage)
      (missing : ∀ parent ∈ declaration.supertypes,
        handed parent = none → parent = rootClass ∧ source.lookup parent = .ok none) :
      HasLineage source name
        (declaration.lineage (declaration.superclass.bind handed)
          (declaration.interfaces.filterMap handed))

namespace HasLineage

theorem knows (has : source.HasLineage name lineage) : source.Knows name := by
  cases has with
  | declared found => exact ⟨_, found⟩

theorem lookup_ne_none (has : source.HasLineage name lineage) : source.lookup name ≠ .ok none := by
  obtain ⟨declaration, found⟩ := has.knows
  simp [found]

theorem unique {other : Lineage} (has : source.HasLineage name lineage)
    (also : source.HasLineage name other) : lineage = other := by
  induction has generalizing other with
  | @declared name declaration found handed known missing ih =>
      cases also with
      | @declared _ _ foundAlso handedAlso knownAlso missingAlso =>
          rw [found] at foundAlso
          cases foundAlso
          refine declaration.lineage_congr fun parent listed => ?_
          cases first : handed parent with
          | none =>
              cases second : handedAlso parent with
              | none => rfl
              | some above =>
                  exact absurd (missing parent listed first).2
                    (knownAlso parent listed above second).lookup_ne_none
          | some above =>
              cases second : handedAlso parent with
              | none =>
                  exact absurd (missingAlso parent listed second).2
                    (known parent listed above first).lookup_ne_none
              | some aboveAlso =>
                  exact congrArg some
                    (ih parent listed above first (knownAlso parent listed aboveAlso second))

theorem handed {declaration : Declaration} (has : source.HasLineage name lineage)
    (found : source.lookup name = .ok (some declaration)) :
    ∃ handed : String → Option Lineage,
      lineage = declaration.lineage (declaration.superclass.bind handed)
        (declaration.interfaces.filterMap handed) ∧
      (∀ parent ∈ declaration.supertypes, ∀ lineage,
        handed parent = some lineage ↔ source.HasLineage parent lineage) ∧
      ∀ parent ∈ declaration.supertypes,
        handed parent = none → parent = rootClass ∧ source.lookup parent = .ok none := by
  cases has with
  | @declared _ again foundAgain handed known missing =>
      rw [foundAgain] at found
      cases found
      refine ⟨handed, rfl, fun parent listed above => ⟨known parent listed above, ?_⟩, missing⟩
      intro has
      cases answer : handed parent with
      | some lineage => exact congrArg some ((known parent listed lineage answer).unique has)
      | none => exact absurd (missing parent listed answer).2 has.lookup_ne_none

theorem self_name {declaration : Declaration} (has : source.HasLineage name lineage)
    (found : source.lookup name = .ok (some declaration)) :
    lineage.self.name = ⟨declaration.name⟩ := by
  obtain ⟨handed, rfl, _⟩ := has.handed found
  rfl

theorem self_kind {declaration : Declaration} (has : source.HasLineage name lineage)
    (found : source.lookup name = .ok (some declaration)) :
    lineage.self.kind = declaration.kind := by
  obtain ⟨handed, rfl, _⟩ := has.handed found
  rfl

theorem self_methods {declaration : Declaration} (has : source.HasLineage name lineage)
    (found : source.lookup name = .ok (some declaration)) :
    lineage.self.methods = declaration.methods.filter Method.isMember := by
  obtain ⟨handed, rfl, _⟩ := has.handed found
  rfl

theorem ancestors_of_superclass {declaration : Declaration} {above : Lineage}
    (has : source.HasLineage name lineage)
    (found : source.lookup name = .ok (some declaration))
    (extended : declaration.superclass = some parent) (hasAbove : source.HasLineage parent above) :
    lineage.ancestors = above.classChain := by
  obtain ⟨handed, rfl, known, _⟩ := has.handed found
  have listed := Declaration.mem_supertypes_of_superclass extended
  have answer := (known parent listed above).mpr hasAbove
  simp [Declaration.lineage, extended, answer]

theorem mem_ancestors {declaration : Declaration} {level : Level}
    (has : source.HasLineage name lineage)
    (found : source.lookup name = .ok (some declaration)) (higher : level ∈ lineage.ancestors) :
    ∃ parent above, declaration.superclass = some parent ∧ source.HasLineage parent above ∧
      level ∈ above.classChain := by
  obtain ⟨handed, rfl, known, _⟩ := has.handed found
  cases extended : declaration.superclass with
  | none => simp [Declaration.lineage, extended] at higher
  | some parent =>
      cases answer : handed parent with
      | none => simp [Declaration.lineage, extended, answer] at higher
      | some above =>
          have listed := Declaration.mem_supertypes_of_superclass extended
          simp only [Declaration.lineage, extended, Option.bind_some, answer, Option.map_some,
            Option.getD_some] at higher
          exact ⟨parent, above, rfl, (known parent listed above).mp answer, higher⟩

theorem exists_of_supertypes {declaration : Declaration}
    (found : source.lookup name = .ok (some declaration))
    (above : ∀ parent ∈ declaration.supertypes, (∃ lineage, source.HasLineage parent lineage) ∨
      parent = rootClass ∧ source.lookup parent = .ok none) :
    ∃ lineage, source.HasLineage name lineage := by
  have answers (parent : String) : ∃ handed : Option Lineage,
      (∀ lineage, handed = some lineage → source.HasLineage parent lineage) ∧
        (handed = none → ¬ ∃ lineage, source.HasLineage parent lineage) := by
    by_cases has : ∃ lineage, source.HasLineage parent lineage
    · obtain ⟨lineage, has⟩ := has
      exact ⟨some lineage, fun _ same => Option.some.inj same ▸ has, by simp⟩
    · exact ⟨none, by simp, fun _ => has⟩
  choose handed known missing using answers
  refine ⟨_, .declared found handed (fun parent _ => known parent) fun parent listed given => ?_⟩
  exact (above parent listed).resolve_left (missing parent given)

/-- A source that keeps every declaration and no root class where there was none keeps lineages. -/
theorem transfer {larger : Source} (has : source.HasLineage name lineage)
    (kept : ∀ type declaration, source.lookup type = .ok (some declaration) →
      larger.lookup type = .ok (some declaration))
    (rootless : source.lookup rootClass = .ok none → larger.lookup rootClass = .ok none) :
    larger.HasLineage name lineage := by
  induction has with
  | @declared name declaration found handed known missing ih =>
      refine .declared (kept name declaration found) handed ih fun parent listed given => ?_
      obtain ⟨rfl, unknown⟩ := missing parent listed given
      exact ⟨rfl, rootless unknown⟩

theorem of_extends (has : source.HasLineage name lineage) (extended : source.Extends name parent) :
    (∃ above, source.HasLineage parent above) ∨
      parent = rootClass ∧ source.lookup parent = .ok none := by
  obtain ⟨declaration, found, listed⟩ := extended
  obtain ⟨handed, -, known, missing⟩ := has.handed found
  cases answer : handed parent with
  | none => exact .inr (missing parent listed answer)
  | some above => exact .inl ⟨above, (known parent listed above).mp answer⟩

/-- Induction from the roots of a hierarchy to a type that has a lineage. -/
theorem climb {motive : (name : String) → (lineage : Lineage) → source.HasLineage name lineage → Prop}
    (step : ∀ {name : String} {lineage : Lineage} {declaration : Declaration}
      (has : source.HasLineage name lineage)
      (_ : source.lookup name = .ok (some declaration))
      (_ : ∀ parent ∈ declaration.supertypes, ∀ lineage,
        (has : source.HasLineage parent lineage) → motive parent lineage has),
      motive name lineage has)
    (has : source.HasLineage name lineage) : motive name lineage has := by
  induction has with
  | @declared name declaration found handed known missing ih =>
      refine step (.declared found handed known missing) found ?_
      intro parent listed above has
      cases answer : handed parent with
      | some lineage =>
          obtain rfl := (known parent listed lineage answer).unique has
          exact ih parent listed lineage answer
      | none => exact absurd (missing parent listed answer).2 has.lookup_ne_none

/-- A way back to the type would be a way back to the supertype it leads over, too. -/
theorem not_inherits_self (has : source.HasLineage name lineage) :
    ¬ source.Inherits name name := by
  induction has with
  | @declared name declaration found handed known missing ih =>
      intro cycle
      obtain ⟨parent, first, back⟩ := Relation.TransGen.head'_iff.mp cycle
      obtain ⟨again, foundAgain, listed⟩ := id first
      rw [found] at foundAgain
      cases foundAgain
      cases answer : handed parent with
      | some above => exact ih parent listed above answer (Relation.TransGen.tail' back first)
      | none =>
          have unknown := (missing parent listed answer).2
          rcases Relation.ReflTransGen.cases_head back with rfl | ⟨_, second, _⟩
          · simp [found] at unknown
          · exact unknown_extends_nothing unknown second

theorem reaches (has : source.HasLineage name lineage) (reached : source.Reaches name parent) :
    (∃ above, source.HasLineage parent above) ∨
      parent = rootClass ∧ source.lookup parent = .ok none := by
  induction reached with
  | refl => exact .inl ⟨lineage, has⟩
  | tail _ extended ih =>
      rcases ih with ⟨above, has⟩ | ⟨_, unknown⟩
      · exact has.of_extends extended
      · exact absurd extended (unknown_extends_nothing unknown)

end HasLineage

/-! Levels above a type, and paths that lead up to it. -/

/-- Everything above a type stands on fewer levels than a number, the type itself included. -/
def Within (source : Source) : Nat → String → Prop
  | 0, name => ¬ source.Knows name
  | depth + 1, name => ∀ parent, source.Extends name parent → source.Within depth parent

theorem within_of_not_knows (unknown : ¬ source.Knows name) (depth : Nat) :
    source.Within depth name := by
  cases depth with
  | zero => exact unknown
  | succ depth => exact fun parent extended => absurd extended.knows unknown

theorem Within.mono {depth larger : Nat} (within : source.Within depth name)
    (enough : depth ≤ larger) : source.Within larger name := by
  induction depth generalizing name larger with
  | zero => exact within_of_not_knows within larger
  | succ depth ih =>
      cases larger with
      | zero => omega
      | succ larger =>
          exact fun parent extended => ih (within parent extended) (by omega)

structure Trail (source : Source) (path : List String) (name : String) : Prop where
  distinct : path.Nodup
  known : ∀ visited ∈ path, source.Knows visited
  below : ∀ visited ∈ path, source.Inherits visited name

def Bounded (source : Source) : Prop :=
  ∃ names : List String, names.length ≤ source.extent ∧ ∀ name, source.Knows name → name ∈ names

namespace Trail

theorem nil (source : Source) (name : String) : source.Trail [] name :=
  ⟨.nil, by simp, by simp⟩

theorem step (trail : source.Trail path name) (fresh : name ∉ path)
    (extended : source.Extends name parent) : source.Trail (path ++ [name]) parent where
  distinct := by
    refine List.nodup_append.mpr ⟨trail.distinct, List.nodup_singleton name, ?_⟩
    intro visited earlier last member same
    rw [List.mem_singleton.mp member] at same
    exact fresh (same ▸ earlier)
  known := by
    intro visited member
    rcases List.mem_append.mp member with earlier | last
    · exact trail.known visited earlier
    · exact List.mem_singleton.mp last ▸ extended.knows
  below := by
    intro visited member
    rcases List.mem_append.mp member with earlier | last
    · exact (trail.below visited earlier).tail extended
    · exact List.mem_singleton.mp last ▸ Relation.TransGen.single extended

theorem length_le (trail : source.Trail path name) (bounded : source.Bounded) :
    path.length ≤ source.extent := by
  obtain ⟨names, size, covers⟩ := bounded
  have room := trail.distinct.length_le_of_subset fun visited member =>
    covers visited (trail.known visited member)
  omega

/-- A path without repetitions has room for a known name that it has not met. -/
theorem length_lt (trail : source.Trail path name) (bounded : source.Bounded)
    (fresh : name ∉ path) (knows : source.Knows name) : path.length < source.extent := by
  obtain ⟨names, size, covers⟩ := bounded
  have distinct : (name :: path).Nodup := List.nodup_cons.mpr ⟨fresh, trail.distinct⟩
  have covered : name :: path ⊆ names := by
    intro visited member
    rcases List.mem_cons.mp member with rfl | earlier
    · exact covers visited knows
    · exact covers visited (trail.known visited earlier)
  have room := distinct.length_le_of_subset covered
  simp only [List.length_cons] at room
  omega

end Trail

theorem HasLineage.apart_of_trail (has : source.HasLineage name lineage)
    (trail : source.Trail path name) : ∀ visited ∈ path, ¬ source.Reaches name visited :=
  fun visited member reached =>
    has.not_inherits_self (Relation.TransGen.trans_right reached (trail.below visited member))

/-- What a path has not used up of the extent is enough for all levels above. -/
theorem HasLineage.within (has : source.HasLineage name lineage) (bounded : source.Bounded)
    (trail : source.Trail path name) {depth : Nat}
    (room : source.extent ≤ depth + path.length) : source.Within depth name := by
  induction has generalizing path depth with
  | @declared name declaration found handed known missing ih =>
      have has : source.HasLineage name _ := .declared found handed known missing
      have fresh : name ∉ path := fun member => has.apart_of_trail trail name member .refl
      cases depth with
      | zero =>
          have short := trail.length_lt bounded fresh has.knows
          omega
      | succ depth =>
          intro parent extended
          obtain ⟨again, foundAgain, listed⟩ := id extended
          rw [found] at foundAgain
          cases foundAgain
          cases answer : handed parent with
          | some above =>
              refine ih parent listed above answer (trail.step fresh extended) ?_
              simp only [List.length_append, List.length_singleton]
              omega
          | none =>
              refine within_of_not_knows (fun ⟨above, foundAbove⟩ => ?_) depth
              simp [(missing parent listed answer).2] at foundAbove

end Source

end Stubwright
