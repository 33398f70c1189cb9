import Stubwright.Proofs.ClassPath.OpenArchives

namespace Stubwright

open Disk

namespace ClassPath

variable {world : World} {name entry : String}

inductive Offers (world : World) (name entry : String) : Except Failure (Option Hit) → Prop
  | missing (absent : world.pathExists entry = false) : Offers world name entry (.ok none)
  | directory (there : world.pathExists entry = true) (files : world.isDirectory entry = true) :
      Offers world name entry (inDirectory world entry name)
  | archive {opened : OpenArchive} (there : world.pathExists entry = true)
      (single : world.isDirectory entry = false) (named : isArchive entry = true)
      (opens : openArchive world entry = .ok opened) :
      Offers world name entry (inArchive entry opened.archive (entryNames name))
  | corrupt {failure : Failure} (there : world.pathExists entry = true)
      (single : world.isDirectory entry = false) (named : isArchive entry = true)
      (fails : openArchive world entry = .error failure) : Offers world name entry (.error failure)
  | other (there : world.pathExists entry = true) (single : world.isDirectory entry = false)
      (unnamed : isArchive entry = false) : Offers world name entry (.ok none)

theorem exists_offers (world : World) (name entry : String) :
    ∃ offer, Offers world name entry offer := by
  cases there : world.pathExists entry with
  | false => exact ⟨_, .missing there⟩
  | true =>
      cases files : world.isDirectory entry with
      | true => exact ⟨_, .directory there files⟩
      | false =>
          cases named : isArchive entry with
          | false => exact ⟨_, .other there files named⟩
          | true =>
              cases opens : openArchive world entry with
              | error failure => exact ⟨_, .corrupt there files named opens⟩
              | ok opened => exact ⟨_, .archive there files named opens⟩

theorem finds_inArchive (there : world.pathExists entry = true) (name : String) :
    Finds world
      (do
        let archive ← opened world entry
        inArchive entry archive (entryNames name))
      ((openArchive world entry).map OpenArchive.archive >>= fun archive =>
        inArchive entry archive (entryNames name)) :=
  (finds_opened there).bind fun _ _ => finds_liftM _

theorem finds_hitAt {offer : Except Failure (Option Hit)} (offers : Offers world name entry offer) :
    Finds world (hitAt world name entry) offer := by
  rw [hitAt]
  cases offers with
  | missing absent =>
      rw [absent]
      exact finds_pure none
  | directory there files =>
      rw [there, files]
      exact finds_liftM _
  | archive there single named opens =>
      rw [there, single, named]
      have finds := finds_inArchive there name
      rwa [opens] at finds
  | corrupt there single named fails =>
      rw [there, single, named]
      have finds := finds_inArchive there name
      rwa [fails] at finds
  | other there single unnamed =>
      rw [there, single, unnamed]
      exact finds_pure none

/-- What becomes of a class file: one that declares another name counts as missing. -/
def judged (name : String) : Option Hit → Except Failure (Option Declaration)
  | none => .ok none
  | some hit =>
      match ClassFile.declaration hit.content with
      | .error fault => .error (.notIntrospectable name (.badClassFile hit.origin fault))
      | .ok declaration =>
          .ok (if declaration.name = name then some declaration.normalized else none)

def otherwise (answer rest : Except Failure (Option Declaration)) :
    Except Failure (Option Declaration) :=
  match answer with
  | .ok none => rest
  | found => found

theorem otherwise_none (answer : Except Failure (Option Declaration)) :
    otherwise answer (.ok none) = answer := by
  rcases answer with _ | _ | _ <;> rfl

theorem otherwise_assoc (first second third : Except Failure (Option Declaration)) :
    otherwise (otherwise first second) third = otherwise first (otherwise second third) := by
  rcases first with _ | _ | _ <;> rfl

theorem finds_loadAlong_cons {others : List String} {offer : Except Failure (Option Hit)}
    {rest : Except Failure (Option Declaration)} (offers : Offers world name entry offer)
    (behind : Finds world (loadAlong world name others) rest) :
    Finds world (loadAlong world name (entry :: others))
      (otherwise (offer >>= judged name) rest) := by
  have stepwise : otherwise (offer >>= judged name) rest =
      offer >>= fun hit => otherwise (judged name hit) rest := by
    cases offer <;> rfl
  rw [stepwise, loadAlong]
  refine (finds_hitAt offers).bind fun hit _ => ?_
  cases hit with
  | none => exact behind
  | some hit =>
      rw [judged]
      dsimp only
      cases ClassFile.declaration hit.content with
      | error fault => exact finds_throw _
      | ok declaration =>
          dsimp only
          by_cases same : declaration.name = name
          · rw [if_pos same, if_pos same]
            exact finds_pure _
          · rw [if_neg same, if_neg same]
            exact behind

def answer (world : World) (name : String) (entries : List String) :
    Except Failure (Option Declaration) :=
  (run (loadAlong world name entries) []).1

theorem finds_loadAlong (world : World) (name : String) (entries : List String) :
    Finds world (loadAlong world name entries) (answer world name entries) := by
  have some_result : ∃ result, Finds world (loadAlong world name entries) result := by
    induction entries with
    | nil => exact ⟨_, finds_pure none⟩
    | cons entry others ih =>
        obtain ⟨rest, behind⟩ := ih
        obtain ⟨offer, offers⟩ := exists_offers world name entry
        exact ⟨_, finds_loadAlong_cons offers behind⟩
  obtain ⟨result, finds⟩ := some_result
  have same : answer world name entries = result := (finds [] (isFaithful_nil world)).1
  rwa [same]

theorem answer_single {offer : Except Failure (Option Hit)} (offers : Offers world name entry offer) :
    answer world name [entry] = offer >>= judged name := by
  have finds := finds_loadAlong_cons offers (finds_loadAlong world name [])
  exact (finds.unique (finds_loadAlong world name [entry])).trans (otherwise_none _)

theorem answer_cons (world : World) (name entry : String) (others : List String) :
    answer world name (entry :: others) =
      otherwise (answer world name [entry]) (answer world name others) := by
  obtain ⟨offer, offers⟩ := exists_offers world name entry
  rw [answer_single offers]
  exact (finds_loadAlong_cons offers (finds_loadAlong world name others)).unique
    (finds_loadAlong world name (entry :: others))

theorem answer_append (world : World) (name : String) (first second : List String) :
    answer world name (first ++ second) =
      otherwise (answer world name first) (answer world name second) := by
  induction first with
  | nil => rfl
  | cons entry others ih =>
      rw [List.cons_append, answer_cons, ih, answer_cons world name entry others, otherwise_assoc]

theorem answer_of_lacking {entries : List String}
    (unknown : ∀ entry ∈ entries, answer world name [entry] = .ok none) :
    answer world name entries = .ok none := by
  induction entries with
  | nil => rfl
  | cons first rest ih =>
      rw [List.forall_mem_cons] at unknown
      rw [answer_cons, unknown.1]
      exact ih unknown.2

/-- Whatever a search answers, one entry answers it, and those before it lack the class. -/
theorem answer_eq_iff {entries : List String} {result : Except Failure (Option Declaration)}
    (answers : result ≠ .ok none) :
    answer world name entries = result ↔
      ∃ before entry after, entries = before ++ entry :: after ∧
        (∀ earlier ∈ before, answer world name [earlier] = .ok none) ∧
        answer world name [entry] = result := by
  constructor
  · intro answered
    induction entries with
    | nil => exact absurd answered.symm answers
    | cons entry others ih =>
        rw [answer_cons] at answered
        by_cases lacks : answer world name [entry] = .ok none
        · rw [lacks] at answered
          obtain ⟨before, found, after, split, unknown, here⟩ := ih answered
          exact ⟨entry :: before, found, after, by rw [split, List.cons_append],
            List.forall_mem_cons.mpr ⟨lacks, unknown⟩, here⟩
        · refine ⟨[], entry, others, rfl, by simp, ?_⟩
          rw [← answered]
          rcases here : answer world name [entry] with _ | _ | _
          · rfl
          · exact absurd here lacks
          · rfl
  · rintro ⟨before, entry, after, rfl, unknown, here⟩
    rw [answer_append, answer_of_lacking unknown, answer_cons, here]
    rcases result with _ | _ | _
    · rfl
    · exact absurd rfl answers
    · rfl

def opening (classPath : ClassPath) (world : World) (earlier : List String) : OpenArchives :=
  earlier.foldl (fun archives name => (run (classPath.load world name) archives).2) []

theorem isFaithful_opening (classPath : ClassPath) (world : World) (earlier : List String) :
    IsFaithful world (opening classPath world earlier) := by
  induction earlier using List.reverseRecOn with
  | nil => exact isFaithful_nil world
  | append_singleton before name ih =>
      rw [opening, List.foldl_append]
      exact (finds_loadAlong world name classPath.entries _ ih).2

/-- How the answers of class paths come from those of their entries, as long as nothing on the disk
changes. -/
structure FirstWins (world : World) (name : String) : Prop where
  append : ∀ first second : List String,
    (source ⟨first ++ second⟩ world).lookup name =
      ((source ⟨first⟩ world).orElse (source ⟨second⟩ world)).lookup name
  single : ∀ entry, ∃ offer, Offers world name entry offer ∧
    (source ⟨[entry]⟩ world).lookup name = offer >>= judged name
  fails : ∀ entries failure, (source ⟨entries⟩ world).lookup name = .error failure ↔
    ∃ before entry after, entries = before ++ entry :: after ∧
      (∀ earlier ∈ before, (source ⟨[earlier]⟩ world).lookup name = .ok none) ∧
      (source ⟨[entry]⟩ world).lookup name = .error failure
  passes : ∀ before entry after hit written, Offers world name entry (.ok (some hit)) →
    ClassFile.declaration hit.content = .ok written → written.name ≠ name →
      (source ⟨before ++ entry :: after⟩ world).lookup name =
        (source ⟨before ++ after⟩ world).lookup name
  found : ∀ entries declaration, (source ⟨entries⟩ world).lookup name = .ok (some declaration) →
    ∃ entry ∈ entries, ∃ hit written, Offers world name entry (.ok (some hit)) ∧
      ClassFile.declaration hit.content = .ok written ∧ written.name = name ∧
      declaration = written.normalized
  steady : ∀ classPath earlier,
    (run (classPath.load world name) (opening classPath world earlier)).1 =
      (classPath.source world).lookup name

theorem judged_eq_some {offer : Except Failure (Option Hit)} {declaration : Declaration}
    (judgement : offer >>= judged name = .ok (some declaration)) :
    ∃ hit written, offer = .ok (some hit) ∧ ClassFile.declaration hit.content = .ok written ∧
      written.name = name ∧ declaration = written.normalized := by
  rcases offer with failure | _ | hit
  · cases judgement
  · cases judgement
  · change judged name (some hit) = .ok (some declaration) at judgement
    rw [judged] at judgement
    cases read : ClassFile.declaration hit.content with
    | error fault => simp [read] at judgement
    | ok written =>
        by_cases same : written.name = name
        · simp only [read, if_pos same, Except.ok.injEq, Option.some.injEq] at judgement
          exact ⟨hit, written, rfl, read, same, judgement.symm⟩
        · simp [read, same] at judgement

/-- The first entry that has the class or breaks the search decides, whatever was searched for before.
-/
theorem firstWins (world : World) (name : String) : FirstWins world name where
  append := answer_append world name
  single entry := by
    obtain ⟨offer, offers⟩ := exists_offers world name entry
    exact ⟨offer, offers, answer_single offers⟩
  fails entries failure := answer_eq_iff (by simp)
  passes before entry after hit written offers read other := by
    have lacks : answer world name [entry] = .ok none := by
      rw [answer_single offers]
      change judged name (some hit) = .ok none
      rw [judged, read]
      exact congrArg Except.ok (if_neg other)
    change answer world name (before ++ entry :: after) = answer world name (before ++ after)
    rw [answer_append, answer_cons, lacks, answer_append]
    rfl
  found entries declaration answered := by
    change answer world name entries = .ok (some declaration) at answered
    rw [answer_eq_iff (by simp)] at answered
    obtain ⟨before, entry, after, rfl, -, here⟩ := answered
    obtain ⟨offer, offers⟩ := exists_offers world name entry
    rw [answer_single offers] at here
    obtain ⟨hit, written, rfl, read, same, normal⟩ := judged_eq_some here
    exact ⟨entry, by simp, hit, written, offers, read, same, normal⟩
  steady classPath earlier :=
    (finds_loadAlong world name classPath.entries _ (isFaithful_opening classPath world earlier)).1

end ClassPath

end Stubwright
