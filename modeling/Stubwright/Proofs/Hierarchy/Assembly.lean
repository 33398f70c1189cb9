import Stubwright.Proofs.Hierarchy.Supertypes
import Stubwright.Proofs.Steps

/-!
Assembling finds the lineage that a type has, and fails on a type that has none. The depth is never
what makes it fail: a path that could use it up would hold more names than the source knows.
-/
namespace Stubwright

theorem collect_eq_ok {answer : α → Except ε β} {values : α → β} {elements : List α}
    (answered : ∀ element ∈ elements, answer element = .ok (values element)) :
    collect answer elements = .ok (elements.map values) := by
  induction elements with
  | nil => rfl
  | cons first rest ih =>
      have tail := ih fun element member => answered element (by simp [member])
      simp [collect, answered first (by simp), tail]

theorem answered_of_collect {answer : α → Except ε β} {elements : List α} {values : List β}
    (collected : collect answer elements = .ok values) :
    ∀ element ∈ elements, ∃ value, answer element = .ok value := by
  induction elements generalizing values with
  | nil => simp
  | cons first rest ih =>
      cases head : answer first with
      | error failure => simp [collect, head] at collected
      | ok value =>
          cases tail : collect answer rest with
          | error failure => simp [collect, head, tail] at collected
          | ok others =>
              intro element member
              rcases List.mem_cons.mp member with rfl | later
              · exact ⟨value, head⟩
              · exact ih tail element later

theorem collect_congr {left right : α → Except ε β} {elements : List α}
    (agree : ∀ element ∈ elements, left element = right element) :
    collect left elements = collect right elements := by
  induction elements with
  | nil => rfl
  | cons first rest ih =>
      have tail := ih fun element member => agree element (by simp [member])
      rw [collect, collect, agree first (by simp), tail]

namespace Source

variable {source : Source} {name owner parent : String} {lineage : Lineage} {path : List String}
  {declaration : Declaration} {depth : Nat} {assemble : String → Except Failure Lineage}

theorem supertype_eq_some :
    source.supertype assemble owner parent = .ok (some lineage) ↔
      source.Knows parent ∧ assemble parent = .ok lineage := by
  unfold supertype Knows
  cases source.lookup parent with
  | error failure => simp
  | ok found =>
      cases found with
      | none => by_cases root : parent = rootClass <;> simp [root]
      | some declaration => cases assemble parent <;> simp [Except.map]

theorem supertype_eq_none :
    source.supertype assemble owner parent = .ok none ↔
      parent = rootClass ∧ source.lookup parent = .ok none := by
  unfold supertype
  cases source.lookup parent with
  | error failure => simp
  | ok found =>
      cases found with
      | none => by_cases root : parent = rootClass <;> simp [root]
      | some declaration => cases assemble parent <;> simp [Except.map]

def Handed (source : Source) (assemble : String → Except Failure Lineage)
    (declaration : Declaration) (handed : String → Option Lineage) : Prop :=
  ∀ parent ∈ declaration.supertypes,
    source.supertype assemble declaration.name parent = .ok (handed parent)

theorem lineageOf_of_handed {handed : String → Option Lineage}
    (answered : source.Handed assemble declaration handed) :
    source.lineageOf assemble declaration =
      .ok (declaration.lineage (declaration.superclass.bind handed)
        (declaration.interfaces.filterMap handed)) := by
  have interfaces :
      collect (source.supertype assemble declaration.name) declaration.interfaces =
        .ok (declaration.interfaces.map handed) :=
    collect_eq_ok fun parent listed =>
      answered parent (Declaration.mem_supertypes_of_interface listed)
  have superclass : source.superclassOf assemble declaration =
      .ok (declaration.superclass.bind handed) := by
    cases extended : declaration.superclass with
    | none => simp [superclassOf, extended]
    | some parent =>
        simpa [superclassOf, extended] using
          answered parent (Declaration.mem_supertypes_of_superclass extended)
  simp [lineageOf, superclass, interfaces, List.filterMap_map, bind, Except.bind, pure,
    Except.pure]

theorem handed_of_lineageOf (done : source.lineageOf assemble declaration = .ok lineage) :
    ∃ handed, source.Handed assemble declaration handed ∧
      lineage = declaration.lineage (declaration.superclass.bind handed)
        (declaration.interfaces.filterMap handed) := by
  let handed (parent : String) : Option Lineage :=
    (source.supertype assemble declaration.name parent).toOption.join
  have answered : source.Handed assemble declaration handed := by
    have answers : ∀ parent ∈ declaration.supertypes, ∃ answer,
        source.supertype assemble declaration.name parent = .ok answer := by
      unfold lineageOf at done
      obtain ⟨superclass, upwards, rest⟩ := ok_of_bind done
      obtain ⟨interfaces, collected, _⟩ := ok_of_bind rest
      intro parent listed
      rcases List.mem_append.mp listed with extended | implemented
      · rw [superclassOf, Option.mem_toList.mp extended] at upwards
        exact ⟨superclass, upwards⟩
      · exact answered_of_collect collected parent implemented
    intro parent listed
    obtain ⟨answer, given⟩ := answers parent listed
    simp [handed, given, Except.toOption]
  refine ⟨handed, answered, ?_⟩
  rw [lineageOf_of_handed answered] at done
  exact (Except.ok.inj done).symm

theorem assembleBelow_declared (unmet : name ∉ path)
    (found : source.lookup name = .ok (some declaration)) :
    source.assembleBelow (depth + 1) path name =
      source.lineageOf (source.assembleBelow depth (path ++ [name])) declaration := by
  rw [assembleBelow, if_neg unmet, found]

/-- Of a supertype only the answer for its own name counts, and what is assembled for it. -/
theorem supertype_congr {other : Source} {assembleToo : String → Except Failure Lineage}
    (owner : String) (answer : source.lookup parent = other.lookup parent)
    (agree : source.Knows parent → assemble parent = assembleToo parent) :
    source.supertype assemble owner parent = other.supertype assembleToo owner parent := by
  unfold supertype
  rw [← answer]
  cases answer : source.lookup parent with
  | error failure => rfl
  | ok found =>
      cases found with
      | none => rfl
      | some declaration => simp only [agree ⟨declaration, answer⟩]

theorem lineageOf_congr {other : Source} {assembleToo : String → Except Failure Lineage}
    (answers : ∀ parent ∈ declaration.supertypes, source.lookup parent = other.lookup parent)
    (agree : ∀ parent ∈ declaration.supertypes, source.Knows parent →
      assemble parent = assembleToo parent) :
    source.lineageOf assemble declaration = other.lineageOf assembleToo declaration := by
  have each (parent : String) (listed : parent ∈ declaration.supertypes) :=
    supertype_congr declaration.name (answers parent listed) (agree parent listed)
  have superclass : source.superclassOf assemble declaration =
      other.superclassOf assembleToo declaration := by
    unfold superclassOf
    cases extended : declaration.superclass with
    | none => rfl
    | some parent => exact each parent (Declaration.mem_supertypes_of_superclass extended)
  have interfaces : collect (source.supertype assemble declaration.name) declaration.interfaces =
      collect (other.supertype assembleToo declaration.name) declaration.interfaces :=
    collect_congr fun parent listed =>
      each parent (Declaration.mem_supertypes_of_interface listed)
  rw [lineageOf, lineageOf, superclass, interfaces]

/-- More depth than a path can use up changes nothing, whether assembling succeeds or fails. -/
theorem assembleBelow_succ_depth (bounded : source.Bounded) (trail : source.Trail path name)
    (room : source.extent < depth + path.length) :
    source.assembleBelow (depth + 1) path name = source.assembleBelow depth path name := by
  induction depth generalizing path name with
  | zero =>
      have short := trail.length_le bounded
      omega
  | succ depth ih =>
      by_cases met : name ∈ path
      · simp only [assembleBelow, if_pos met]
      · cases answer : source.lookup name with
        | error failure => simp only [assembleBelow, if_neg met, answer]
        | ok found =>
            cases found with
            | none => simp only [assembleBelow, if_neg met, answer]
            | some declaration =>
                rw [assembleBelow_declared met answer, assembleBelow_declared met answer]
                refine lineageOf_congr (fun _ _ => rfl) fun parent listed _ => ?_
                refine ih (trail.step met ⟨declaration, answer, listed⟩) ?_
                simp only [List.length_append, List.length_singleton]
                omega

theorem hasLineage_of_assembleBelow (done : source.assembleBelow depth path name = .ok lineage) :
    source.HasLineage name lineage := by
  induction depth generalizing path name lineage with
  | zero => simp [assembleBelow] at done
  | succ depth ih =>
      by_cases met : name ∈ path
      · simp [assembleBelow, met] at done
      · cases answer : source.lookup name with
        | error failure => simp [assembleBelow, met, answer] at done
        | ok found =>
            cases found with
            | none => simp [assembleBelow, met, answer] at done
            | some declaration =>
                rw [assembleBelow_declared met answer] at done
                obtain ⟨handed, answered, rfl⟩ := handed_of_lineageOf done
                refine .declared answer handed ?_ ?_
                · intro parent listed lineage given
                  have assembled := answered parent listed
                  rw [given, supertype_eq_some] at assembled
                  exact ih assembled.2
                · intro parent listed given
                  have absent := answered parent listed
                  rwa [given, supertype_eq_none] at absent

/-- A lineage is found below any path that leads to no type twice, with depth for all levels. -/
theorem HasLineage.assembleBelow (has : source.HasLineage name lineage)
    (within : source.Within depth name) (apart : ∀ visited ∈ path, ¬ source.Reaches name visited) :
    source.assembleBelow depth path name = .ok lineage := by
  induction has generalizing path depth with
  | @declared name declaration found handed known missing ih =>
      have has : source.HasLineage name _ := .declared found handed known missing
      have unmet : name ∉ path := fun member => apart name member .refl
      cases depth with
      | zero => exact absurd has.knows within
      | succ depth =>
          have answered : source.Handed (source.assembleBelow depth (path ++ [name])) declaration
              handed := by
            intro parent listed
            have extended : source.Extends name parent := ⟨declaration, found, listed⟩
            cases answer : handed parent with
            | none => exact supertype_eq_none.mpr (missing parent listed answer)
            | some above =>
                have has := known parent listed above answer
                refine supertype_eq_some.mpr ⟨has.knows, ?_⟩
                refine ih parent listed above answer (within parent extended) ?_
                intro visited member reached
                rcases List.mem_append.mp member with earlier | last
                · exact apart visited earlier (.head extended reached)
                · rw [List.mem_singleton.mp last] at reached
                  exact has.not_inherits_self (Relation.TransGen.tail' reached extended)
          rw [assembleBelow_declared unmet found, lineageOf_of_handed answered]

/-- Assembling succeeds on the types that have a lineage, and with that lineage. -/
theorem assemble_eq_ok (bounded : source.Bounded) :
    source.assemble name = .ok lineage ↔ source.HasLineage name lineage := by
  constructor
  · exact hasLineage_of_assembleBelow
  · intro has
    have within : source.Within source.extent name :=
      has.within bounded (.nil source name) (by simp)
    exact has.assembleBelow (within.mono (by omega)) (by simp)

end Source

end Stubwright
