import Stubwright.Hierarchy.Assembler
import Stubwright.Proofs.Hierarchy.Assembly
import Stubwright.Proofs.Hierarchy.CatalogSource

/-!
What the memory of an assembler may hold, and why it never shows. A request reflects a result if it
gives that result with every sound memory and leaves a sound memory with the same types in progress,
whether it succeeds or fails.
-/
namespace Stubwright

structure Memory.Sound (memory : Memory) (source : Source) : Prop where
  declarations : ∀ name declaration,
    memory.declarations.lookup name = some declaration →
      source.lookup name = .ok (some declaration)
  lineages : ∀ name lineage,
    memory.lineages.lookup name = some lineage → source.HasLineage name lineage

theorem Memory.sound_empty (source : Source) : Memory.empty.Sound source :=
  ⟨by simp [empty], by simp [empty]⟩

/-- What holds of a new entry and of every old one holds of whatever a search finds. -/
theorem forall_lookup_cons {entries : List (String × β)} {name : String} {value : β}
    {holds : String → β → Prop} (new : holds name value)
    (old : ∀ key kept, entries.lookup key = some kept → holds key kept) :
    ∀ key kept, ((name, value) :: entries).lookup key = some kept → holds key kept := by
  intro key kept found
  rw [List.lookup_cons] at found
  cases same : key == name with
  | true =>
      simp only [same, Option.some.injEq] at found
      rw [eq_of_beq same, ← found]
      exact new
  | false =>
      rw [same] at found
      exact old key kept found

namespace Assembler

variable {α β : Type} {source : Source} {path : List String} {name : String} {depth : Nat}
  {request : Remembering α} {result : Except Failure α} {memory : Memory}

theorem run_bind (request : Remembering α) (next : α → Remembering β) (memory : Memory) :
    run (request >>= next) memory =
      match run request memory with
      | (.ok value, after) => run (next value) after
      | (.error failure, after) => (.error failure, after) := by
  unfold run
  rw [ExceptT.run_bind, StateT.run_bind]
  rcases request.run.run memory with ⟨answer, after⟩
  cases answer <;> rfl

theorem run_get_bind (next : Memory → Remembering α) (memory : Memory) :
    run (get >>= next) memory = run (next memory) memory := rfl

theorem run_modify_pure (change : Memory → Memory) (value : α) (memory : Memory) :
    run (do modify change; pure value) memory = (.ok value, change memory) := rfl

theorem run_during (name : String) (request : Remembering α) (memory : Memory) :
    run (during name request) memory =
      let (answer, after) :=
        run request { memory with inProgress := memory.inProgress ++ [name] }
      (answer, { after with inProgress := after.inProgress.dropLast }) := rfl

/-- A request gives a result while the types of a path are in progress. -/
def Reflects (source : Source) (path : List String) (request : Remembering α)
    (result : Except Failure α) : Prop :=
  ∀ memory : Memory, memory.Sound source → memory.inProgress = path →
    (run request memory).1 = result ∧ (run request memory).2.Sound source ∧
      (run request memory).2.inProgress = path

theorem reflects_iff_gives : Reflects source path request result ↔
    Gives (fun memory => memory.Sound source ∧ memory.inProgress = path) request result :=
  ⟨fun reflects memory start => reflects memory start.1 start.2,
    fun gives memory sound progress => gives memory ⟨sound, progress⟩⟩

theorem reflects_pure (value : α) : Reflects source path (pure value) (.ok value) :=
  fun _ sound progress => ⟨rfl, sound, progress⟩

theorem reflects_throw (failure : Failure) :
    Reflects source path (throw failure : Remembering α) (.error failure) :=
  fun _ sound progress => ⟨rfl, sound, progress⟩

theorem Reflects.bind {next : α → Remembering β} {plain : α → Except Failure β}
    (first : Reflects source path request result)
    (second : ∀ value, result = .ok value → Reflects source path (next value) (plain value)) :
    Reflects source path (request >>= next) (result >>= plain) := by
  rw [reflects_iff_gives] at first ⊢
  exact first.bind fun value answered => reflects_iff_gives.mp (second value answered)

/-- A request goes on as its result does: the result fails with what comes first, and from an answer
the rest gives all of it. -/
theorem Reflects.andThen {next : α → Remembering β} {whole : Except Failure β}
    (first : Reflects source path request result)
    (failed : ∀ failure, result = .error failure → whole = .error failure)
    (answered : ∀ value, result = .ok value → Reflects source path (next value) whole) :
    Reflects source path (request >>= next) whole := by
  have stepwise : whole = result >>= fun _ => whole := by
    cases result with
    | error failure => exact failed failure rfl
    | ok value => rfl
  rw [stepwise]
  exact first.bind answered

theorem Reflects.map (reflects : Reflects source path request result) (change : α → β) :
    Reflects source path (change <$> request) (result.map change) := by
  rw [reflects_iff_gives] at reflects ⊢
  exact reflects.map change

/-- With one type more in progress a request gives what it gives on the longer path, and what is in
progress afterwards is as before. -/
theorem reflects_during (inner : Reflects source (path ++ [name]) request result) :
    Reflects source path (during name request) result := by
  intro memory sound progress
  obtain ⟨answered, soundAfter, progressAfter⟩ :=
    inner { memory with inProgress := memory.inProgress ++ [name] }
      ⟨sound.declarations, sound.lineages⟩ (by simp [progress])
  rw [run_during]
  refine ⟨answered, ⟨soundAfter.declarations, soundAfter.lineages⟩, ?_⟩
  simp [progressAfter]

theorem reflects_recallDeclaration (name : String) :
    Reflects source path (recallDeclaration source name) (source.lookup name) := by
  intro memory sound progress
  unfold recallDeclaration
  rw [run_get_bind]
  cases recalled : memory.declarations.lookup name with
  | some declaration =>
      exact ⟨(sound.declarations name declaration recalled).symm, sound, progress⟩
  | none =>
      cases answer : source.lookup name with
      | error failure => exact ⟨rfl, sound, progress⟩
      | ok found =>
          cases found with
          | none => exact ⟨rfl, sound, progress⟩
          | some declaration =>
              rw [run_modify_pure]
              exact ⟨rfl, ⟨forall_lookup_cons answer sound.declarations, sound.lineages⟩, progress⟩

theorem reflects_supertype {assemble : String → Remembering Lineage}
    {plain : String → Except Failure Lineage} (owner : String)
    (reflects : source.Knows name → Reflects source path (assemble name) (plain name)) :
    Reflects source path (supertype source assemble owner name)
      (source.supertype plain owner name) := by
  refine (reflects_recallDeclaration name).andThen (fun failure failed => ?_) fun found answer => ?_
  · rw [Source.supertype, failed]
  · rw [Source.supertype, answer]
    cases found with
    | some declaration => exact (reflects ⟨declaration, answer⟩).map some
    | none =>
        by_cases root : name = rootClass
        · simpa only [if_pos root] using reflects_pure none
        · simpa only [if_neg root] using reflects_throw _

theorem reflects_mapM {request : α → Remembering β} {plain : α → Except Failure β}
    {elements : List α}
    (each : ∀ element ∈ elements, Reflects source path (request element) (plain element)) :
    Reflects source path (elements.mapM request) (collect plain elements) := by
  induction elements with
  | nil => exact reflects_pure []
  | cons first rest ih =>
      have tail := ih fun element member => each element (by simp [member])
      rw [List.mapM_cons]
      refine (each first (by simp)).andThen (fun failure failed => ?_) fun value head => ?_
      · rw [collect, failed]
      · refine tail.andThen (fun failure failed => ?_) fun values others => ?_
        · rw [collect, head, failed]
        · rw [collect, head, others]
          exact reflects_pure _

theorem reflects_lineageOf {assemble : String → Remembering Lineage}
    {plain : String → Except Failure Lineage} {declaration : Declaration}
    (reflects : ∀ parent ∈ declaration.supertypes,
      source.Knows parent → Reflects source path (assemble parent) (plain parent)) :
    Reflects source path (lineageOf source assemble declaration)
      (source.lineageOf plain declaration) := by
  have each (parent : String) (listed : parent ∈ declaration.supertypes) :=
    reflects_supertype declaration.name (reflects parent listed)
  have superclass : Reflects source path (superclassOf source assemble declaration)
      (source.superclassOf plain declaration) := by
    unfold superclassOf Source.superclassOf
    cases extended : declaration.superclass with
    | none => exact reflects_pure none
    | some parent => exact each parent (Declaration.mem_supertypes_of_superclass extended)
  have interfaces := reflects_mapM fun parent listed =>
    each parent (Declaration.mem_supertypes_of_interface listed)
  exact superclass.bind fun _ _ => interfaces.bind fun _ _ => reflects_pure _

theorem reflects_remember {lineage : Lineage} (has : source.HasLineage name lineage) :
    Reflects source path
      (do
        modify fun memory => { memory with lineages := (name, lineage) :: memory.lineages }
        pure lineage)
      (.ok lineage) := by
  intro memory sound progress
  rw [run_modify_pure]
  exact ⟨rfl, ⟨sound.declarations, forall_lookup_cons has sound.lineages⟩, progress⟩

/-- The step upwards from a declared type, given that the steps above it reflect the plain ones. -/
theorem reflects_declared {declaration : Declaration}
    (found : source.lookup name = .ok (some declaration)) (unmet : name ∉ path)
    (above : ∀ parent ∈ declaration.supertypes,
      Reflects source (path ++ [name]) (assembleBelow source depth parent)
        (source.assembleBelow depth (path ++ [name]) parent)) :
    Reflects source path
      (do
        let lineage ← during name (lineageOf source (assembleBelow source depth) declaration)
        modify fun memory => { memory with lineages := (name, lineage) :: memory.lineages }
        pure lineage)
      (source.lineageOf (source.assembleBelow depth (path ++ [name])) declaration) := by
  have assembled (lineage : Lineage)
      (done : source.lineageOf (source.assembleBelow depth (path ++ [name])) declaration =
        .ok lineage) : source.HasLineage name lineage := by
    rw [← Source.assembleBelow_declared unmet found] at done
    exact Source.hasLineage_of_assembleBelow done
  have inner := reflects_during (reflects_lineageOf fun parent listed _ => above parent listed)
  rw [← bind_ok (source.lineageOf (source.assembleBelow depth (path ++ [name])) declaration)]
  exact inner.bind fun lineage done => reflects_remember (assembled lineage done)

/-- The path of a type in progress stands for the depth that is used up. A remembered lineage answers
at once what the plain assembly finds again: the type has the lineage, so nothing on the path is
above it. -/
theorem reflects_assembleBelow (bounded : source.Bounded) (trail : source.Trail path name)
    (room : source.extent < depth + path.length) :
    Reflects source path (assembleBelow source depth name)
      (source.assembleBelow depth path name) := by
  induction depth generalizing path name with
  | zero =>
      rintro memory sound rfl
      exact ⟨rfl, sound, rfl⟩
  | succ depth ih =>
      intro memory sound progress
      unfold assembleBelow
      rw [run_get_bind]
      cases recalled : memory.lineages.lookup name with
      | some lineage =>
          -- The plain assembly goes up all over again, but never meets the path.
          have has := sound.lineages name lineage recalled
          have within : source.Within (depth + 1) name := has.within bounded trail (by omega)
          rw [has.assembleBelow within (has.apart_of_trail trail)]
          exact ⟨rfl, sound, progress⟩
      | none =>
          by_cases met : name ∈ path
          · simp only [Source.assembleBelow, progress, if_pos met]
            exact ⟨rfl, sound, progress⟩
          · simp only [progress, if_neg met]
            rw [Source.assembleBelow, if_neg met]
            refine (reflects_recallDeclaration name).andThen (fun failure failed => ?_)
              (fun found answer => ?_) memory sound progress
            · rw [failed]
            · rw [answer]
              cases found with
              | none => exact reflects_throw _
              | some declaration =>
                  refine reflects_declared answer met fun parent listed => ?_
                  refine ih (trail.step met ⟨declaration, answer, listed⟩) ?_
                  simp only [List.length_append, List.length_singleton]
                  omega

theorem reflects_assemble (bounded : source.Bounded) (name : String) :
    Reflects source [] (assemble source name) (source.assemble name) :=
  reflects_assembleBelow bounded (.nil source name) (by simp)

theorem reflects_firstKnown (names : List String) :
    Reflects source path (firstKnown source names) (Stubwright.firstKnown source.lookup names) := by
  induction names with
  | nil => exact reflects_pure none
  | cons name others ih =>
      refine (reflects_recallDeclaration name).andThen (fun failure failed => ?_)
        fun found answer => ?_
      · rw [Stubwright.firstKnown, failed]
      · rw [Stubwright.firstKnown, answer]
        cases found with
        | some declaration => exact reflects_pure (some name)
        | none => exact ih

theorem reflects_resolve (name : String) :
    Reflects source path (resolve source name) (source.resolve name) := by
  refine (reflects_firstKnown (spellings name)).andThen (fun failure failed => ?_)
    fun known answer => ?_
  · rw [Source.resolve, failed]
  · rw [Source.resolve, answer]
    cases known with
    | some binaryName => exact reflects_pure binaryName
    | none => exact reflects_throw _

end Assembler

namespace Source

def answer (source : Source) : Assembler.Request → Except Failure Assembler.Answer
  | .resolve name => (source.resolve name).map .resolved
  | .assemble name => (source.assemble name).map .assembled

end Source

namespace Assembler

theorem reflects_answer (bounded : source.Bounded) (request : Request) :
    Reflects source [] (answer source request) (source.answer request) := by
  cases request with
  | resolve name => exact (reflects_resolve name).map Answer.resolved
  | assemble name => exact (reflects_assemble bounded name).map Answer.assembled

/-- Every request leaves a sound memory, so by induction each one meets one. -/
theorem answers_of_sound (bounded : source.Bounded) (requests : List Request)
    (sound : memory.Sound source) (idle : memory.inProgress = []) :
    answers source requests memory = requests.map source.answer := by
  induction requests generalizing memory with
  | nil => rfl
  | cons request others ih =>
      obtain ⟨answered, soundAfter, idleAfter⟩ := reflects_answer bounded request memory sound idle
      rw [answers, List.map_cons, ← answered, ← ih soundAfter idleAfter]

theorem fresh_of_reflects (reflects : Reflects source [] request result) :
    fresh request = result :=
  (reflects .empty (Memory.sound_empty source) rfl).1

theorem fresh_assemble (bounded : source.Bounded) (name : String) :
    fresh (assemble source name) = source.assemble name :=
  fresh_of_reflects (reflects_assemble bounded name)

/-- Any number of requests in any order, successful or not, are answered as each of them is with
nothing remembered. -/
theorem answers_eq_map_fresh (catalogs : List Catalog) (requests : List Request) :
    answers (.ofCatalogs catalogs) requests .empty =
      requests.map fun request => fresh (answer (.ofCatalogs catalogs) request) := by
  have bounded := Source.bounded_ofCatalogs catalogs
  rw [answers_of_sound bounded requests (Memory.sound_empty _) rfl]
  exact List.map_congr_left fun request _ =>
    (fresh_of_reflects (reflects_answer bounded request)).symm

end Assembler

/-- A type that is described has a lineage, unless it is one without members. -/
theorem Source.hasLineage_of_describe {source : Source} (bounded : source.Bounded) {written : String}
    {lineage : Lineage} (described : source.describe written = .ok lineage) :
    lineage.self.publicMethods = [] ∨ ∃ name, source.HasLineage name lineage := by
  unfold describe at described
  simp only at described
  split at described
  · contradiction
  · split at described
    · cases described
      exact .inl rfl
    · split at described
      · cases described
        exact .inl rfl
      · have resolved : Assembler.Reflects source []
            (Assembler.resolve source (Text.trimmed written))
            (source.resolve (Text.trimmed written)) :=
          Assembler.reflects_resolve _
        have whole := resolved.bind fun name _ => Assembler.reflects_assemble bounded name
        rw [Assembler.fresh_of_reflects whole] at described
        obtain ⟨name, _, assembled⟩ := ok_of_bind described
        exact .inr ⟨name, (Source.assemble_eq_ok bounded).mp assembled⟩

end Stubwright
