import Stubwright.Proofs.Signature.Ordering
import Mathlib.Data.List.FinRange
import Mathlib.Order.Fin.Basic

namespace Stubwright

open SignatureSet Signature

variable {seen : SignatureSet} {methods : List Method} {method : Method}

theorem firstBySignature_sublist (seen : SignatureSet) (methods : List Method) :
    (firstBySignature seen methods).Sublist methods := by
  induction methods generalizing seen with
  | nil => exact .slnil
  | cons first rest ih =>
      cases inserted : seen.insert? first.signature with
      | none => simpa only [firstBySignature, inserted] using (ih seen).cons first
      | some larger => simpa only [firstBySignature, inserted] using (ih larger).cons_cons first

theorem find?_firstBySignature_seen (rising : Rising seen.members) (signature : Signature) :
    (firstBySignature seen methods).find? (·.signature.same signature) =
      if seen.has signature then none else methods.find? (·.signature.same signature) := by
  induction methods generalizing seen with
  | nil => simp [firstBySignature]
  | cons first rest ih =>
      cases inserted : seen.insert? first.signature with
      | none =>
          have met : seen.has first.signature = true := (insert?_eq_none rising).mp inserted
          rw [firstBySignature, inserted]
          cases equal : first.signature.same signature with
          | true => simp [ih rising, ← has_congr equal, met]
          | false => simp [ih rising, equal]
      | some larger =>
          have unmet : seen.has first.signature = false := by
            rw [← Bool.not_eq_true, ← insert?_eq_none rising, inserted]
            exact Option.some_ne_none larger
          have grown := has_insert? rising inserted signature
          rw [firstBySignature, inserted]
          cases equal : first.signature.same signature with
          | true => simp [equal, ← has_congr equal, unmet]
          | false =>
              rw [same_comm, equal, Bool.false_or] at grown
              simp [ih (insert?_rising rising inserted), equal, grown]

theorem firstBySignature_distinct (rising : Rising seen.members) :
    (firstBySignature seen methods).Pairwise (fun earlier later =>
        earlier.signature.same later.signature = false) ∧
      ∀ method ∈ firstBySignature seen methods, seen.has method.signature = false := by
  induction methods generalizing seen with
  | nil => simp [firstBySignature]
  | cons first rest ih =>
      cases inserted : seen.insert? first.signature with
      | none => simpa only [firstBySignature, inserted] using ih rising
      | some larger =>
          have unmet : seen.has first.signature = false := by
            rw [← Bool.not_eq_true, ← insert?_eq_none rising, inserted]
            exact Option.some_ne_none larger
          obtain ⟨distinct, fresh⟩ := ih (insert?_rising rising inserted)
          have later (method : Method) (kept : method ∈ firstBySignature larger rest) :
              method.signature.same first.signature = false ∧
                seen.has method.signature = false := by
            simpa [has_insert? rising inserted] using fresh method kept
          simp only [firstBySignature, inserted]
          refine ⟨List.pairwise_cons.mpr ⟨?_, distinct⟩, ?_⟩
          · intro method kept
            rw [same_comm]
            exact (later method kept).1
          · intro method kept
            rcases List.mem_cons.mp kept with rfl | kept
            · exact unmet
            · exact (later method kept).2

@[simp]
theorem find?_firstBySignature (methods : List Method) (signature : Signature) :
    (firstBySignature .empty methods).find? (·.signature.same signature) =
      methods.find? (·.signature.same signature) := by
  rw [find?_firstBySignature_seen rising_empty, has_empty]
  rfl

theorem pairwise_firstBySignature (methods : List Method) :
    (firstBySignature .empty methods).Pairwise fun earlier later =>
      earlier.signature.same later.signature = false :=
  (firstBySignature_distinct rising_empty).1

theorem mem_of_mem_firstBySignature (kept : method ∈ firstBySignature .empty methods) :
    method ∈ methods :=
  (firstBySignature_sublist .empty methods).mem kept

theorem find?_eq_some_of_distinct (distinct : methods.Pairwise fun earlier later =>
      earlier.signature.same later.signature = false) (member : method ∈ methods) :
    methods.find? (·.signature.same method.signature) = some method := by
  induction methods with
  | nil => contradiction
  | cons first rest ih =>
      obtain ⟨different, distinct⟩ := List.pairwise_cons.mp distinct
      rcases List.mem_cons.mp member with rfl | later
      · simp
      · rw [List.find?_cons_of_neg (by simp [different method later])]
        exact ih distinct later

/-- A method is kept exactly if it is the first of its signature. -/
theorem mem_firstBySignature :
    method ∈ firstBySignature .empty methods ↔
      methods.find? (·.signature.same method.signature) = some method := by
  constructor
  · intro kept
    rw [← find?_firstBySignature]
    exact find?_eq_some_of_distinct (pairwise_firstBySignature methods) kept
  · intro found
    rw [← find?_firstBySignature] at found
    exact List.mem_of_find?_eq_some found

def Method.SharesSignature (left right : Method) : Prop :=
  left.name = right.name ∧
    left.parameters.map JavaType.binaryName = right.parameters.map JavaType.binaryName

instance (left right : Method) : Decidable (left.SharesSignature right) :=
  inferInstanceAs (Decidable (_ ∧ _))

theorem Method.sharesSignature_iff {left right : Method} :
    left.SharesSignature right ↔ left.signature.same right.signature = true := by
  rw [same_iff]
  rfl

/-- No earlier method has the signature of the one at this place. -/
def FirstAt (methods : List Method) (place : Fin methods.length) : Prop :=
  ∀ earlier < place, ¬ (methods.get earlier).SharesSignature (methods.get place)

instance (methods : List Method) : DecidablePred (FirstAt methods) := fun _ =>
  inferInstanceAs (Decidable (∀ _, _ → _))

theorem firstAt_zero (first : Method) (rest : List Method) :
    FirstAt (first :: rest) (0 : Fin (rest.length + 1)) :=
  fun earlier before => absurd before (Fin.not_lt_zero earlier)

theorem firstAt_succ {first : Method} {rest : List Method} {place : Fin rest.length} :
    FirstAt (first :: rest) place.succ ↔
      ¬ first.SharesSignature (rest.get place) ∧ FirstAt rest place := by
  constructor
  · intro unmet
    refine ⟨unmet 0 (Fin.succ_pos place), ?_⟩
    intro earlier before
    exact unmet earlier.succ (Fin.succ_lt_succ_iff.mpr before)
  · rintro ⟨different, unmet⟩ earlier before
    cases earlier using Fin.cases with
    | zero => exact different
    | succ earlier => exact unmet earlier (Fin.succ_lt_succ_iff.mp before)

/-- The places whose methods are kept, when the signatures in `seen` count as met before. -/
def keptPlaces (seen : SignatureSet) (methods : List Method) : List (Fin methods.length) :=
  (List.finRange methods.length).filter fun place =>
    seen.has (methods.get place).signature = false ∧ FirstAt methods place

theorem keptPlaces_cons {larger : SignatureSet} {first : Method} (rest : List Method)
    (grown : ∀ signature, larger.has signature =
      (signature.same first.signature || seen.has signature)) :
    keptPlaces seen (first :: rest) =
      (if seen.has first.signature then [] else [0]) ++ (keptPlaces larger rest).map Fin.succ := by
  have start : (seen.has ((first :: rest).get (0 : Fin (rest.length + 1))).signature = false ∧
      FirstAt (first :: rest) (0 : Fin (rest.length + 1))) ↔ seen.has first.signature = false :=
    and_iff_left (firstAt_zero first rest)
  have later (place : Fin rest.length) :
      (seen.has (rest.get place).signature = false ∧ FirstAt (first :: rest) place.succ) ↔
        larger.has (rest.get place).signature = false ∧ FirstAt rest place := by
    rw [firstAt_succ, Method.sharesSignature_iff, grown, same_comm first.signature,
      Bool.or_eq_false_iff, Bool.not_eq_true, ← and_assoc]
    exact and_congr_left' And.comm
  have tail : ((List.finRange rest.length).map Fin.succ).filter (fun place =>
      seen.has ((first :: rest).get place).signature = false ∧ FirstAt (first :: rest) place) =
        (keptPlaces larger rest).map Fin.succ := by
    rw [List.filter_map, keptPlaces]
    congr 1
    exact List.filter_congr fun place _ => decide_eq_decide.mpr (later place)
  simp only [List.length_cons] at tail
  rw [keptPlaces]
  simp only [List.length_cons, List.finRange_succ, List.filter_cons, tail, start]
  cases seen.has first.signature <;> rfl

theorem firstBySignature_eq_keptPlaces (rising : Rising seen.members) :
    firstBySignature seen methods = (keptPlaces seen methods).map methods.get := by
  induction methods generalizing seen with
  | nil => rfl
  | cons first rest ih =>
      cases inserted : seen.insert? first.signature with
      | none =>
          have met : seen.has first.signature = true := (insert?_eq_none rising).mp inserted
          have grown (signature : Signature) : seen.has signature =
              (signature.same first.signature || seen.has signature) := by
            cases equal : signature.same first.signature with
            | true => simpa [has_congr equal] using met
            | false => rfl
          rw [keptPlaces_cons rest grown, if_pos met, List.nil_append, List.map_map,
            firstBySignature, inserted]
          exact ih rising
      | some larger =>
          have unmet : seen.has first.signature = false := by
            rw [← Bool.not_eq_true, ← insert?_eq_none rising, inserted]
            exact Option.some_ne_none larger
          rw [keptPlaces_cons rest (has_insert? rising inserted), unmet, List.map_append,
            List.map_map, firstBySignature, inserted]
          exact congrArg (first :: ·) (ih (insert?_rising rising inserted))

theorem mem_keptPlaces_empty {place : Fin methods.length} :
    place ∈ keptPlaces .empty methods ↔ FirstAt methods place := by
  simp [keptPlaces]

theorem pairwise_keptPlaces (seen : SignatureSet) (methods : List Method) :
    (keptPlaces seen methods).Pairwise (· < ·) :=
  (List.pairwise_lt_finRange methods.length).filter _

theorem FirstAt.unique {left right : Fin methods.length} (first : FirstAt methods left)
    (second : FirstAt methods right)
    (shared : (methods.get left).SharesSignature (methods.get right)) : left = right := by
  rcases Nat.lt_trichotomy left right with before | same | after
  · exact absurd shared (second left before)
  · exact Fin.ext same
  · exact absurd ⟨shared.1.symm, shared.2.symm⟩ (first right after)

theorem exists_firstAt (methods : List Method) (place : Fin methods.length) :
    ∃ first ≤ place, FirstAt methods first ∧
      (methods.get first).SharesSignature (methods.get place) := by
  induction place using WellFoundedLT.induction with
  | ind place ih =>
      by_cases first : FirstAt methods place
      · exact ⟨place, le_refl place, first, rfl, rfl⟩
      · simp only [FirstAt, not_forall, not_not] at first
        obtain ⟨earlier, before, shared⟩ := first
        obtain ⟨first, notAfter, leads, alike⟩ := ih earlier before
        exact ⟨first, notAfter.trans before.le, leads, alike.1.trans shared.1,
          alike.2.trans shared.2⟩

end Stubwright
