import Stubwright.Modifiers

namespace Stubwright.Modifiers

open Text

/-- Every bit that is set has a keyword. -/
def IsNamed (flags : Modifiers) : Prop :=
  ∀ place, flags.bits.getLsbD place = true → ∃ modifier : Modifier, modifier.index = place

theorem isNamed_empty : empty.IsNamed := by
  intro place set
  simp [empty] at set

theorem isNamed_bit (modifier : Modifier) : IsNamed ⟨modifier.bit⟩ := by
  intro place set
  rw [Modifier.getLsbD_bit] at set
  exact ⟨modifier, of_decide_eq_true set⟩

theorem IsNamed.add {flags more : Modifiers} (named : flags.IsNamed) (moreNamed : more.IsNamed) :
    (flags.add more).IsNamed := by
  intro place set
  rw [Modifiers.add, BitVec.getLsbD_or, Bool.or_eq_true] at set
  exact set.elim (named place) (moreNamed place)

theorem IsNamed.keep {flags : Modifiers} (named : flags.IsNamed) (mask : Modifiers) :
    (flags.keep mask).IsNamed := by
  intro place set
  rw [Modifiers.keep, BitVec.getLsbD_and, Bool.and_eq_true] at set
  exact named place set.1

def addAll (flags : Modifiers) (modifiers : List Modifier) : Modifiers :=
  modifiers.foldl (fun flags modifier => flags.add ⟨modifier.bit⟩) flags

theorem addAll_eq (flags : Modifiers) (modifiers : List Modifier) :
    flags.addAll modifiers =
      ⟨modifiers.foldl (fun bits modifier => bits ||| modifier.bit) flags.bits⟩ := by
  induction modifiers generalizing flags with
  | nil => rfl
  | cons first rest ih => exact ih (flags.add ⟨first.bit⟩)

theorem ofList_eq_addAll (modifiers : List Modifier) : ofList modifiers = empty.addAll modifiers :=
  (addAll_eq empty modifiers).symm

theorem IsNamed.addAll {flags : Modifiers} (named : flags.IsNamed) (modifiers : List Modifier) :
    (flags.addAll modifiers).IsNamed := by
  induction modifiers generalizing flags with
  | nil => exact named
  | cons first rest ih => exact ih (named.add (isNamed_bit first))

theorem isNamed_ofList (modifiers : List Modifier) : (ofList modifiers).IsNamed := by
  rw [ofList_eq_addAll]
  exact isNamed_empty.addAll modifiers

theorem IsNamed.ext {flags others : Modifiers} (named : flags.IsNamed)
    (othersNamed : others.IsNamed)
    (same : ∀ modifier, flags.has modifier = others.has modifier) : flags = others := by
  refine eq_of_getLsbD fun place => ?_
  by_cases known : ∃ modifier : Modifier, modifier.index = place
  · obtain ⟨modifier, rfl⟩ := known
    have agree := same modifier
    rwa [has_eq_getLsbD, has_eq_getLsbD] at agree
  · have unset : ∀ {flags : Modifiers}, flags.IsNamed → flags.bits.getLsbD place = false :=
      fun named => Bool.eq_false_iff.mpr fun set => known (named place set)
    rw [unset named, unset othersNamed]

theorem ofList_filter_has {flags : Modifiers} (named : flags.IsNamed) :
    ofList (Modifier.all.filter flags.has) = flags := by
  refine (isNamed_ofList _).ext named fun modifier => ?_
  simp [has_ofList, Modifier.mem_all]

theorem trimmed_keyword (modifier : Modifier) : trimmed modifier.keyword = modifier.keyword := by
  cases modifier <;> decide

theorem ofKeywords_keyword (modifiers : List Modifier) :
    ofKeywords (modifiers.map Modifier.keyword) = .ok (ofList modifiers) := by
  rw [ofList_eq_addAll, ofKeywords]
  generalize empty = flags
  induction modifiers generalizing flags with
  | nil => rfl
  | cons first rest ih =>
      rw [List.map_cons, List.foldlM_cons, trimmed_keyword, Modifier.ofKeyword?_keyword]
      exact ih (flags.add ⟨first.bit⟩)

theorem ofKeywords_keywords {flags : Modifiers} (named : flags.IsNamed) :
    ofKeywords flags.keywords = .ok flags := by
  rw [keywords, ofKeywords_keyword, ofList_filter_has named]

theorem isNamed_of_ofKeywords {keywords : List String} {flags : Modifiers}
    (read : ofKeywords keywords = .ok flags) : flags.IsNamed := by
  rw [ofKeywords] at read
  have start := isNamed_empty
  generalize empty = before at read start
  induction keywords generalizing before with
  | nil =>
      cases read
      exact start
  | cons keyword rest ih =>
      rw [List.foldlM_cons] at read
      cases known : Modifier.ofKeyword? (trimmed keyword) with
      | none =>
          rw [known] at read
          cases read
      | some modifier =>
          rw [known] at read
          exact ih (before.add ⟨modifier.bit⟩) read (start.add (isNamed_bit modifier))

end Stubwright.Modifiers
