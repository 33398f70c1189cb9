import Stubwright.Proofs.Hierarchy.Memory
import Stubwright.Proofs.Hierarchy.Relevance
import Stubwright.Proofs.Hierarchy.Spelling
import Mathlib.Order.Nat
import Mathlib.Data.Nat.Find

namespace Stubwright

namespace Source

variable {source other : Source} {name binaryName : String} {count : Nat}
  {result resultToo : Except Failure String}

/-- The source is asked for the spellings of a name one after the other, and knows none of those with
fewer dollar signs. -/
structure ReachesSpelling (source : Source) (name : String) (count : Nat) : Prop where
  few : count ≤ periods name
  unknown : ∀ fewer < count, source.lookup (nested fewer name) = .ok none

inductive Resolution (source : Source) (name : String) : Except Failure String → Prop
  | found {count : Nat} (reached : source.ReachesSpelling name count)
      (known : source.Knows (nested count name)) : Resolution source name (.ok (nested count name))
  | failed {count : Nat} {failure : Failure} (reached : source.ReachesSpelling name count)
      (fails : source.lookup (nested count name) = .error failure) :
      Resolution source name (.error failure)
  | unknown (nowhere : ∀ count ≤ periods name, source.lookup (nested count name) = .ok none) :
      Resolution source name (.error (.notIntrospectable name .unknownType))

theorem firstKnown_append {lookup : String → Except Failure (Option Declaration)}
    {before : List String} (unknown : ∀ earlier ∈ before, lookup earlier = .ok none)
    (others : List String) : firstKnown lookup (before ++ others) = firstKnown lookup others := by
  induction before with
  | nil => rfl
  | cons first rest ih =>
      rw [List.cons_append, firstKnown, unknown first List.mem_cons_self]
      exact ih fun earlier member => unknown earlier (List.mem_cons_of_mem _ member)

theorem ReachesSpelling.firstKnown (reached : source.ReachesSpelling name count) :
    ∃ others, Stubwright.firstKnown source.lookup (spellings name) =
      Stubwright.firstKnown source.lookup (nested count name :: others) := by
  obtain ⟨others, split⟩ := spellings_split reached.few
  refine ⟨others, ?_⟩
  rw [split, firstKnown_append]
  intro earlier member
  obtain ⟨fewer, listed, rfl⟩ := List.mem_map.mp member
  exact reached.unknown fewer (List.mem_range.mp listed)

theorem Resolution.resolve (resolution : source.Resolution name result) :
    source.resolve name = result := by
  rw [Source.resolve]
  cases resolution with
  | found reached known =>
      obtain ⟨others, first⟩ := reached.firstKnown
      obtain ⟨declaration, answer⟩ := known
      rw [first, Stubwright.firstKnown, answer]
  | failed reached fails =>
      obtain ⟨others, first⟩ := reached.firstKnown
      rw [first, Stubwright.firstKnown, fails]
  | unknown nowhere =>
      have none_known : Stubwright.firstKnown source.lookup (spellings name) = .ok none := by
        rw [← List.append_nil (spellings name), firstKnown_append]
        · rfl
        · intro earlier member
          rw [spellings_eq] at member
          obtain ⟨count, listed, rfl⟩ := List.mem_map.mp member
          exact nowhere count (Nat.lt_succ_iff.mp (List.mem_range.mp listed))
      rw [none_known]

/-- There always is a first spelling that is known or fails, unless there is none at all. -/
theorem exists_resolution (source : Source) (name : String) :
    ∃ result, source.Resolution name result := by
  by_cases nowhere : ∀ count ≤ periods name, source.lookup (nested count name) = .ok none
  · exact ⟨_, .unknown nowhere⟩
  · classical
    simp only [not_forall, exists_prop] at nowhere
    have reached : source.ReachesSpelling name (Nat.find nowhere) := by
      refine ⟨(Nat.find_spec nowhere).1, fun fewer less => ?_⟩
      by_contra answers
      have few : fewer ≤ periods name := less.le.trans (Nat.find_spec nowhere).1
      exact Nat.find_min nowhere less ⟨few, answers⟩
    have answers := (Nat.find_spec nowhere).2
    cases answer : source.lookup (nested (Nat.find nowhere) name) with
    | error failure => exact ⟨_, .failed reached answer⟩
    | ok found =>
        cases found with
        | none => exact absurd answer answers
        | some declaration => exact ⟨_, .found reached ⟨declaration, answer⟩⟩

theorem resolve_eq_iff : source.resolve name = result ↔ source.Resolution name result := by
  refine ⟨?_, Resolution.resolve⟩
  rintro rfl
  obtain ⟨result, resolution⟩ := source.exists_resolution name
  rwa [resolution.resolve]

theorem exists_last (source : Source) (name : String) :
    ∃ last, source.ReachesSpelling name last ∧
      ∀ count, source.ReachesSpelling name count → count ≤ last := by
  obtain ⟨result, resolution⟩ := source.exists_resolution name
  have stops {last : Nat} (reached : source.ReachesSpelling name last)
      (answers : source.lookup (nested last name) ≠ .ok none) :
      ∀ count, source.ReachesSpelling name count → count ≤ last := by
    intro count reachedToo
    by_contra behind
    exact answers (reachedToo.unknown last (Nat.not_le.mp behind))
  cases resolution with
  | @found last reached known =>
      obtain ⟨declaration, answer⟩ := known
      exact ⟨last, reached, stops reached (by simp [answer])⟩
  | @failed last failure reached fails => exact ⟨last, reached, stops reached (by simp [fails])⟩
  | unknown nowhere =>
      refine ⟨periods name, ⟨Nat.le_refl _, fun fewer less => nowhere fewer less.le⟩, ?_⟩
      exact fun count reached => reached.few

theorem reachesSpelling_of_split {before after : List String} {candidate : String}
    (split : spellings name = before ++ candidate :: after)
    (unknown : ∀ earlier ∈ before, source.lookup earlier = .ok none) :
    candidate = nested before.length name ∧ source.ReachesSpelling name before.length := by
  have length := congrArg List.length split
  rw [spellings_eq] at split
  simp only [spellings_eq, List.length_map, List.length_range, List.length_append,
    List.length_cons] at length
  have listed {place : Nat} (within : place ≤ periods name) :
      (before ++ candidate :: after)[place]? = some (nested place name) := by
    rw [← split, List.getElem?_map, List.getElem?_range (Nat.lt_succ_of_le within), Option.map_some]
  have few : before.length ≤ periods name := by omega
  have here := listed few
  rw [List.getElem?_append_right (Nat.le_refl _), Nat.sub_self, List.getElem?_cons_zero,
    Option.some_inj] at here
  refine ⟨here, few, fun fewer less => unknown _ ?_⟩
  have earlier := listed (less.le.trans few)
  rw [List.getElem?_append_left less] at earlier
  exact List.mem_of_getElem? earlier

theorem resolution_of_knows (knows : source.Knows name) : source.Resolution name (.ok name) := by
  have reached : source.ReachesSpelling name 0 :=
    ⟨Nat.zero_le _, fun _ less => absurd less (Nat.not_lt_zero _)⟩
  have known : source.Knows (nested 0 name) := (nested_zero name).symm ▸ knows
  have resolution := Resolution.found reached known
  rwa [nested_zero] at resolution

theorem Resolution.knows (resolution : source.Resolution name (.ok binaryName)) :
    source.Knows binaryName := by
  generalize whole : Except.ok binaryName = result at resolution
  cases resolution with
  | found reached known => exact Except.ok.inj whole ▸ known
  | failed => cases whole
  | unknown => cases whole

theorem unknown_of_not_knows (total : ∀ failure, source.lookup name ≠ .error failure)
    (unknown : ¬ source.Knows name) : source.lookup name = .ok none := by
  cases answer : source.lookup name with
  | error failure => exact absurd answer (total failure)
  | ok found =>
      cases found with
      | none => rfl
      | some declaration => exact absurd ⟨declaration, answer⟩ unknown

/-- The spelling with periods alone leads back to a name whose dollar signs come last, unless one of
the spellings before it is known. -/
theorem resolution_canonical (total : ∀ name failure, source.lookup name ≠ .error failure)
    (knows : source.Knows name) (ordered : DollarsLast name.toList) :
    source.Resolution (canonical name) (.ok name) ↔
      ∀ fewer < dollars name, ¬ source.Knows (nested fewer (canonical name)) := by
  have within := dollars_le_periods_canonical name
  constructor
  · intro resolution fewer less knowsFewer
    generalize whole : Except.ok name = result at resolution
    cases resolution with
    | @found count reached known =>
        have same : nested (dollars name) (canonical name) = nested count (canonical name) := by
          rw [nested_canonical ordered]
          exact Except.ok.inj whole
        obtain rfl := nested_inj within reached.few same
        obtain ⟨declaration, answer⟩ := knowsFewer
        rw [reached.unknown fewer less] at answer
        cases answer
    | failed => cases whole
    | unknown => cases whole
  · intro unknown
    have reached : source.ReachesSpelling (canonical name) (dollars name) :=
      ⟨within, fun fewer less => unknown_of_not_knows (total _) (unknown fewer less)⟩
    have known : source.Knows (nested (dollars name) (canonical name)) :=
      (nested_canonical ordered).symm ▸ knows
    have resolution := Resolution.found reached known
    rwa [nested_canonical ordered] at resolution

end Source

namespace Assembler

variable {source other : Source} {memory : Memory} {name : String}

theorem recallDeclaration_congr (same : other.lookup name = source.lookup name) :
    recallDeclaration other name = recallDeclaration source name := by
  rw [recallDeclaration, recallDeclaration, same]

theorem run_firstKnown_congr {names : List String} (sound : memory.Sound source)
    (agree : ∀ before name after, names = before ++ name :: after →
      (∀ earlier ∈ before, source.lookup earlier = .ok none) →
        other.lookup name = source.lookup name) :
    run (firstKnown other names) memory = run (firstKnown source names) memory := by
  induction names generalizing memory with
  | nil => rfl
  | cons name others ih =>
      have here : other.lookup name = source.lookup name := agree [] name others rfl (by simp)
      rw [firstKnown, firstKnown, recallDeclaration_congr here, run_bind, run_bind]
      have reflects : Reflects source memory.inProgress (recallDeclaration source name)
          (source.lookup name) := reflects_recallDeclaration name
      obtain ⟨answer, soundAfter, -⟩ := reflects memory sound rfl
      rcases recalled : run (recallDeclaration source name) memory with ⟨result, after⟩
      rw [recalled] at answer soundAfter
      dsimp only at answer soundAfter ⊢
      subst answer
      cases answer : source.lookup name with
      | error failure => rfl
      | ok found =>
          cases found with
          | some declaration => rfl
          | none =>
              refine ih soundAfter fun before next after split unknown => ?_
              exact agree (name :: before) next after (by rw [split, List.cons_append])
                (List.forall_mem_cons.mpr ⟨answer, unknown⟩)

structure ResolvesLeast (source : Source) (memory : Memory) (name : String) : Prop where
  answer : ∀ result, (run (resolve source name) memory).1 = result ↔ source.Resolution name result
  distinct : ∀ fewer ≤ periods name, ∀ count ≤ periods name,
    nested fewer name = nested count name → fewer = count
  lookups : ∃ last, source.ReachesSpelling name last ∧ ∀ other : Source,
    (∀ count ≤ last, other.lookup (nested count name) = source.lookup (nested count name)) →
      run (resolve other name) memory = run (resolve source name) memory
  known : source.Knows name → (run (resolve source name) memory).1 = .ok name
  again : ∀ binaryName, (run (resolve source name) memory).1 = .ok binaryName →
    (run (resolve source binaryName) (run (resolve source name) memory).2).1 = .ok binaryName
  canonical : (∀ name failure, source.lookup name ≠ .error failure) → source.Knows name →
    DollarsLast name.toList →
      ((run (resolve source (canonical name)) memory).1 = .ok name ↔
        ∀ fewer < dollars name, ¬ source.Knows (nested fewer (canonical name)))

theorem run_resolve_congr {last : Nat} (sound : memory.Sound source)
    (latest : ∀ count, source.ReachesSpelling name count → count ≤ last)
    (agree : ∀ count ≤ last,
      other.lookup (nested count name) = source.lookup (nested count name)) :
    run (resolve other name) memory = run (resolve source name) memory := by
  have same : run (firstKnown other (spellings name)) memory =
      run (firstKnown source (spellings name)) memory := by
    refine run_firstKnown_congr sound fun before candidate after split unknown => ?_
    obtain ⟨spelled, reached⟩ := Source.reachesSpelling_of_split split unknown
    rw [spelled, agree _ (latest _ reached)]
  rw [resolve, resolve, run_bind, run_bind, same]

/-- A name is resolved to the first of its spellings that the source knows, whatever is remembered. -/
theorem resolvesLeast_of_sound (sound : memory.Sound source) (name : String) :
    ResolvesLeast source memory name := by
  have resolved {memory : Memory} (sound : memory.Sound source) (name : String) :
      (run (resolve source name) memory).1 = source.resolve name ∧
        (run (resolve source name) memory).2.Sound source := by
    have reflects : Reflects source memory.inProgress (resolve source name)
        (source.resolve name) := reflects_resolve name
    obtain ⟨answered, soundAfter, -⟩ := reflects memory sound rfl
    exact ⟨answered, soundAfter⟩
  obtain ⟨answered, soundAfter⟩ := resolved sound name
  refine ⟨fun result => ?_, fun fewer few count fewToo => nested_inj few fewToo, ?_, fun knows => ?_,
    fun binaryName found => ?_, fun total knows ordered => ?_⟩
  · rw [answered, Source.resolve_eq_iff]
  · obtain ⟨last, reached, latest⟩ := source.exists_last name
    exact ⟨last, reached, fun other agree => run_resolve_congr sound latest agree⟩
  · rw [answered]
    exact (Source.resolution_of_knows knows).resolve
  · rw [answered, Source.resolve_eq_iff] at found
    rw [(resolved soundAfter binaryName).1]
    exact (Source.resolution_of_knows found.knows).resolve
  · rw [(resolved sound (canonical name)).1, Source.resolve_eq_iff]
    exact Source.resolution_canonical total knows ordered

theorem resolvesLeast_framePicture :
    ResolvesLeast (.ofCatalog Source.otherGallery)
        (run (resolve (.ofCatalog Source.otherGallery) "kit$Frame$Picture") .empty).2
        "kit.Frame.Picture" ∧
      (run (resolve (.ofCatalog Source.otherGallery) "kit.Frame.Picture")
        (run (resolve (.ofCatalog Source.otherGallery) "kit$Frame$Picture") .empty).2).1 =
          .ok "kit.Frame$Picture" := by
  have sound : (run (resolve (.ofCatalog Source.otherGallery) "kit$Frame$Picture") .empty).2.Sound
      (.ofCatalog Source.otherGallery) :=
    (reflects_resolve _ .empty (Memory.sound_empty _) rfl).2.1
  exact ⟨resolvesLeast_of_sound sound "kit.Frame.Picture", by decide +kernel⟩

end Assembler

end Stubwright
