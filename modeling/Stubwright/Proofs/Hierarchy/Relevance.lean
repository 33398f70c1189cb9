import Stubwright.Proofs.Hierarchy.CatalogSource
import Stubwright.Proofs.Hierarchy.Memory
import Stubwright.Stub.Synthesis

/-!
What describing a type depends on. A source is asked for the spellings of the name up to the first
one that it knows, and for the supertypes above that; sources with the same answers for these names
describe the type alike, and fail alike.
-/
namespace Stubwright

theorem firstKnown_congr {first second : String → Except Failure (Option Declaration)}
    {names : List String}
    (agree : ∀ before name after, names = before ++ name :: after →
      (∀ earlier ∈ before, first earlier = .ok none) → first name = second name) :
    firstKnown first names = firstKnown second names := by
  induction names with
  | nil => rfl
  | cons name others ih =>
      have here : first name = second name := agree [] name others rfl (by simp)
      rw [firstKnown, firstKnown, ← here]
      cases answer : first name with
      | error failure => rfl
      | ok found =>
          cases found with
          | some declaration => rfl
          | none =>
              refine ih fun before next after split unknown => ?_
              refine agree (name :: before) next after (by rw [split, List.cons_append]) ?_
              intro earlier member
              rcases List.mem_cons.mp member with rfl | later
              · exact answer
              · exact unknown earlier later

theorem firstKnown_eq_some {lookup : String → Except Failure (Option Declaration)}
    {names : List String} {name : String} (found : firstKnown lookup names = .ok (some name)) :
    ∃ before after, names = before ++ name :: after ∧
      ∀ earlier ∈ before, lookup earlier = .ok none := by
  induction names with
  | nil => cases found
  | cons first others ih =>
      rw [firstKnown] at found
      cases answer : lookup first with
      | error failure => simp [answer] at found
      | ok known =>
          cases known with
          | some declaration =>
              simp only [answer, Except.ok.injEq, Option.some.injEq] at found
              exact ⟨[], others, by rw [found, List.nil_append], by simp⟩
          | none =>
              simp only [answer] at found
              obtain ⟨before, after, split, unknown⟩ := ih found
              refine ⟨first :: before, after, by rw [split, List.cons_append], ?_⟩
              intro earlier member
              rcases List.mem_cons.mp member with rfl | later
              · exact answer
              · exact unknown earlier later

namespace Source

variable {left right source : Source} {depth : Nat} {path : List String} {name : String}

/-- The spellings that are looked up for a name: each one only if the source knows none before it. -/
def Tries (source : Source) (name candidate : String) : Prop :=
  ∃ before after, spellings name = before ++ candidate :: after ∧
    ∀ earlier ∈ before, source.lookup earlier = .ok none

/-- The names that a source is asked for when a type is described: the spellings that are tried, and
whatever can be reached upwards from one that is known. -/
def Asks (source : Source) (written asked : String) : Prop :=
  ∃ candidate, source.Tries (Text.trimmed written) candidate ∧ source.Reaches candidate asked

theorem assembleBelow_congr
    (agree : ∀ asked, left.Reaches name asked → left.lookup asked = right.lookup asked) :
    left.assembleBelow depth path name = right.assembleBelow depth path name := by
  -- Whatever a supertype reaches is reached from below, so the agreement goes up with the depth.
  induction depth generalizing path name with
  | zero => rfl
  | succ depth ih =>
      rw [assembleBelow, assembleBelow, ← agree name .refl]
      by_cases met : name ∈ path
      · rw [if_pos met, if_pos met]
      · rw [if_neg met, if_neg met]
        cases answer : left.lookup name with
        | error failure => rfl
        | ok found =>
            cases found with
            | none => rfl
            | some declaration =>
                have above (parent : String) (listed : parent ∈ declaration.supertypes) :
                    left.Extends name parent := ⟨declaration, answer, listed⟩
                refine lineageOf_congr (fun parent listed => ?_) fun parent listed _ => ?_
                · exact agree parent (.single (above parent listed))
                · exact ih fun asked reached => agree asked (.head (above parent listed) reached)

theorem assembleBelow_of_room (bounded : source.Bounded) (room : source.extent < depth)
    (name : String) : source.assembleBelow depth [] name = source.assemble name := by
  induction depth with
  | zero => contradiction
  | succ depth ih =>
      rcases Nat.lt_or_eq_of_le (Nat.le_of_lt_succ room) with more | enough
      · rw [assembleBelow_succ_depth bounded (.nil source name) (by simpa using more), ih more]
      · rw [assemble, enough]

theorem assemble_congr (bounded : left.Bounded) (boundedToo : right.Bounded)
    (agree : ∀ asked, left.Reaches name asked → left.lookup asked = right.lookup asked) :
    left.assemble name = right.assemble name := by
  have both : left.extent + right.extent < left.extent + right.extent + 1 := Nat.lt_succ_self _
  rw [← assembleBelow_of_room bounded (Nat.lt_of_le_of_lt (Nat.le_add_right _ _) both),
    ← assembleBelow_of_room boundedToo (Nat.lt_of_le_of_lt (Nat.le_add_left _ _) both),
    assembleBelow_congr agree]

theorem resolve_congr
    (agree : ∀ candidate, left.Tries name candidate →
      left.lookup candidate = right.lookup candidate) :
    left.resolve name = right.resolve name := by
  have known : firstKnown left.lookup (spellings name) =
      firstKnown right.lookup (spellings name) :=
    firstKnown_congr fun before candidate after split unknown =>
      agree candidate ⟨before, after, split, unknown⟩
  rw [resolve, resolve, known]

theorem tries_of_resolve {binaryName : String} (resolved : source.resolve name = .ok binaryName) :
    source.Tries name binaryName := by
  unfold resolve at resolved
  cases known : firstKnown source.lookup (spellings name) with
  | error failure => simp [known] at resolved
  | ok answer =>
      cases answer with
      | none => simp [known] at resolved
      | some found =>
          simp only [known, Except.ok.injEq] at resolved
          subst resolved
          exact firstKnown_eq_some known

/-- Describing a type is resolving its name and assembling what it stands for, if the name is none
of a type without members. -/
theorem describe_eq (bounded : source.Bounded) (written : String) :
    source.describe written =
      if (Text.trimmed written).isEmpty then .error (.notIntrospectable written .emptyName)
      else if Text.trimmed written = "void" || (Primitive.ofName? (Text.trimmed written)).isSome then
        .ok (.memberless (Text.trimmed written) .primitiveType)
      else if ['[', ']'].isSuffixOf (Text.trimmed written).toList then
        .ok (.memberless (Text.trimmed written) .arrayType)
      else source.resolve (Text.trimmed written) >>= source.assemble := by
  have resolved : Assembler.Reflects source [] (Assembler.resolve source (Text.trimmed written))
      (source.resolve (Text.trimmed written)) := Assembler.reflects_resolve (Text.trimmed written)
  have whole := resolved.bind fun name _ => Assembler.reflects_assemble bounded name
  rw [describe, ← Assembler.fresh_of_reflects whole]

theorem describe_congr (bounded : left.Bounded) (boundedToo : right.Bounded) {written : String}
    (agree : ∀ asked, left.Asks written asked → left.lookup asked = right.lookup asked) :
    left.describe written = right.describe written := by
  have resolved : left.resolve (Text.trimmed written) = right.resolve (Text.trimmed written) :=
    resolve_congr fun candidate tried => agree candidate ⟨candidate, tried, .refl⟩
  have whole : left.resolve (Text.trimmed written) >>= left.assemble =
      right.resolve (Text.trimmed written) >>= right.assemble := by
    rw [← resolved]
    cases found : left.resolve (Text.trimmed written) with
    | error failure => rfl
    | ok binaryName =>
        have tried := tries_of_resolve found
        exact assemble_congr bounded boundedToo fun asked reached =>
          agree asked ⟨binaryName, tried, reached⟩
  rw [describe_eq bounded, describe_eq boundedToo, whole]

/-- A catalog is asked for no name outside a list that holds the spellings tried and all direct
supertypes of its members. -/
theorem mem_of_asks {names : List String} {written asked : String}
    (tried : ∀ candidate, source.Tries (Text.trimmed written) candidate → candidate ∈ names)
    (closed : ∀ name ∈ names, ∀ parent, source.Extends name parent → parent ∈ names)
    (asks : source.Asks written asked) : asked ∈ names := by
  obtain ⟨candidate, tries, reached⟩ := asks
  induction reached with
  | refl => exact tried candidate tries
  | tail _ extended ih => exact closed _ ih _ extended

/-- Two catalogs that answer alike for every name asked of the first one describe a type alike, with
the same failure if it cannot be described, and the same is generated from both. So a declaration of
any other name can be added, removed or changed. -/
theorem describe_eq_of_asked_alike (first second : Catalog) (written : String)
    (alike : ∀ asked, (ofCatalog first).Asks written asked →
      first.find? asked = second.find? asked) :
    (ofCatalog first).describe written = (ofCatalog second).describe written ∧
      ∀ settings,
        (ofCatalog first).describe written >>= Lineage.implementation settings =
          (ofCatalog second).describe written >>= Lineage.implementation settings := by
  have described : (ofCatalog first).describe written = (ofCatalog second).describe written := by
    refine describe_congr (bounded_ofCatalog first) (bounded_ofCatalog second) fun asked asks => ?_
    rw [lookup_ofCatalog, lookup_ofCatalog, alike asked asks]
  exact ⟨described, fun settings => by rw [described]⟩

/-- A picture inside a frame with a class and an interface above it, and a type below a missing one. -/
def gallery : Catalog :=
  .ofDeclarations
    [.bare "kit.Frame$Picture" .classType (some "kit.Shape") ["kit.Named"] [],
      .bare "kit.Shape" .classType none [] [.bare "draw" [.abstractMember]],
      .bare "kit.Named" .interfaceType none [] [.bare "name" [.abstractMember]],
      .bare "kit.Spare" .classType (some "kit.Missing") [] []]

/-- The same pictures among other types: a cycle, a known type that takes the place of the spare one,
and a spelling that comes after the known one. -/
def otherGallery : Catalog :=
  .ofDeclarations
    [.bare "kit.Loop" .interfaceType none ["kit.Loop"] [],
      .bare "kit.Named" .interfaceType none [] [.bare "name" [.abstractMember]],
      .bare "kit$Frame$Picture" .enumType none [] [],
      .bare "kit.Shape" .classType none [] [.bare "draw" [.abstractMember]],
      .bare "kit.Spare" .interfaceType none [] [.bare "spare" [.abstractMember]],
      .bare "kit.Frame$Picture" .classType (some "kit.Shape") ["kit.Named"] []]

theorem asked_gallery {asked : String} (asks : (ofCatalog gallery).Asks "kit.Frame.Picture" asked) :
    asked ∈ ["kit.Frame.Picture", "kit.Frame$Picture", "kit.Shape", "kit.Named", rootClass] := by
  refine mem_of_asks ?_ ?_ asks
  · rintro candidate ⟨before, after, split, unknown⟩
    have all : spellings (Text.trimmed "kit.Frame.Picture") =
        ["kit.Frame.Picture", "kit.Frame$Picture", "kit$Frame$Picture"] := by decide
    rw [all] at split
    rcases before with _ | ⟨first, _ | ⟨second, rest⟩⟩
    · obtain ⟨rfl, -⟩ := List.cons.inj split
      simp
    · obtain ⟨-, split⟩ := List.cons.inj split
      obtain ⟨rfl, -⟩ := List.cons.inj split
      simp
    · obtain ⟨-, split⟩ := List.cons.inj split
      obtain ⟨rfl, -⟩ := List.cons.inj split
      have missing := unknown "kit.Frame$Picture" (by simp)
      contradiction
  · rintro name listed parent ⟨declaration, found, above⟩
    have within : ∀ name ∈ ["kit.Frame.Picture", "kit.Frame$Picture", "kit.Shape", "kit.Named",
        rootClass], ∀ parent ∈ ((gallery.find? name).map Declaration.supertypes).getD [],
          parent ∈ ["kit.Frame.Picture", "kit.Frame$Picture", "kit.Shape", "kit.Named",
            rootClass] := by decide
    rw [found_ofCatalog] at found
    exact within name listed parent (by simpa [found] using above)

theorem describe_eq_otherGallery :
    gallery.find? "kit.Spare" ≠ otherGallery.find? "kit.Spare" ∧
      (ofCatalog gallery).describe "kit.Frame.Picture" =
        (ofCatalog otherGallery).describe "kit.Frame.Picture" := by
  refine ⟨by decide, ?_⟩
  refine (describe_eq_of_asked_alike gallery otherGallery "kit.Frame.Picture" ?_).1
  intro asked asks
  have same : ∀ name ∈ ["kit.Frame.Picture", "kit.Frame$Picture", "kit.Shape", "kit.Named",
      rootClass], gallery.find? name = otherGallery.find? name := by decide
  exact same asked (asked_gallery asks)

end Source

end Stubwright
