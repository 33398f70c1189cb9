import Stubwright.Member
import Mathlib.Data.List.Basic

namespace Stubwright

namespace Signature

instance : Std.TransCmp compare :=
  inferInstanceAs (Std.TransCmp (compareLex (compareOn name)
    (compareLex (compareOn fun signature => signature.parameters.length)
      (compareOn parameterNames))))

theorem compare_eq_eq {left right : Signature} :
    left.compare right = .eq ↔
      left.name = right.name ∧ left.parameterNames = right.parameterNames := by
  have lengths (names : left.parameterNames = right.parameterNames) :
      left.parameters.length = right.parameters.length := by
    simpa [parameterNames] using congrArg List.length names
  simp only [compare, Ordering.then_eq_eq, Std.LawfulEqOrd.compare_eq_iff_eq]
  exact ⟨fun ⟨name, _, names⟩ => ⟨name, names⟩, fun ⟨name, names⟩ => ⟨name, lengths names, names⟩⟩

theorem same_iff {left right : Signature} :
    left.same right = true ↔
      left.name = right.name ∧ left.parameterNames = right.parameterNames := by
  rw [same, beq_iff_eq, compare_eq_eq]

@[simp]
theorem same_self (signature : Signature) : signature.same signature = true := by
  simp [same_iff]

theorem same_comm (left right : Signature) : left.same right = right.same left := by
  rw [Bool.eq_iff_iff, same_iff, same_iff, eq_comm, @eq_comm _ left.parameterNames]

theorem same_congr {left right : Signature} (equal : left.same right = true) (other : Signature) :
    left.same other = right.same other := by
  rw [same_iff] at equal
  rw [Bool.eq_iff_iff, same_iff, same_iff, equal.1, equal.2]

end Signature

namespace SignatureSet

open Signature

def has (set : SignatureSet) (signature : Signature) : Bool :=
  set.members.any signature.same

def Rising (members : List Signature) : Prop :=
  members.Pairwise fun earlier later => earlier.compare later = .lt

theorem rising_empty : Rising empty.members :=
  .nil

@[simp]
theorem has_empty (signature : Signature) : empty.has signature = false := rfl

theorem any_same_of_below {signature : Signature} {members : List Signature}
    (below : ∀ member ∈ members, signature.compare member = .lt) :
    members.any signature.same = false := by
  rw [List.any_eq_false]
  intro member found equal
  rw [same, below member found] at equal
  contradiction

/-- In a rising list the search may stop at the first greater member. -/
theorem insertInto?_eq_none {signature : Signature} {members : List Signature}
    (rising : Rising members) :
    insertInto? signature members = none ↔ members.any signature.same = true := by
  induction members with
  | nil => simp [insertInto?]
  | cons first rest ih =>
      obtain ⟨least, rising⟩ := List.pairwise_cons.mp rising
      cases order : signature.compare first with
      | lt =>
          have absent : rest.any signature.same = false :=
            any_same_of_below fun member found => Std.TransCmp.lt_trans order (least member found)
          simp [insertInto?, order, absent, same]
      | eq => simp [insertInto?, order, same]
      | gt => simpa [insertInto?, order, same] using ih rising

theorem insertInto?_spec {signature : Signature} {members inserted : List Signature}
    (rising : Rising members) (done : insertInto? signature members = some inserted) :
    Rising inserted ∧ inserted.Perm (signature :: members) := by
  induction members generalizing inserted with
  | nil =>
      cases done
      exact ⟨List.pairwise_singleton _ _, .rfl⟩
  | cons first rest ih =>
      obtain ⟨least, rising⟩ := List.pairwise_cons.mp rising
      cases order : signature.compare first with
      | lt =>
          simp only [insertInto?, order, Option.some.injEq] at done
          subst inserted
          refine ⟨List.pairwise_cons.mpr ⟨?_, List.pairwise_cons.mpr ⟨least, rising⟩⟩, .rfl⟩
          intro member found
          rcases List.mem_cons.mp found with rfl | found
          · exact order
          · exact Std.TransCmp.lt_trans order (least member found)
      | eq => simp [insertInto?, order] at done
      | gt =>
          simp only [insertInto?, order, Option.map_eq_some_iff] at done
          obtain ⟨tail, placed, rfl⟩ := done
          obtain ⟨tailRising, tailMembers⟩ := ih rising placed
          refine ⟨List.pairwise_cons.mpr ⟨?_, tailRising⟩,
            (tailMembers.cons first).trans (List.Perm.swap signature first rest)⟩
          intro member found
          rcases List.mem_cons.mp (tailMembers.mem_iff.mp found) with rfl | found
          · exact Std.OrientedCmp.lt_of_gt order
          · exact least member found

theorem insert?_eq_none {set : SignatureSet} {signature : Signature}
    (rising : Rising set.members) :
    set.insert? signature = none ↔ set.has signature = true := by
  rw [insert?, Option.map_eq_none_iff, insertInto?_eq_none rising, has]

theorem insert?_rising {set larger : SignatureSet} {signature : Signature}
    (rising : Rising set.members) (inserted : set.insert? signature = some larger) :
    Rising larger.members := by
  obtain ⟨members, placed, rfl⟩ := Option.map_eq_some_iff.mp inserted
  exact (insertInto?_spec rising placed).1

theorem has_insert? {set larger : SignatureSet} {signature : Signature}
    (rising : Rising set.members) (inserted : set.insert? signature = some larger)
    (other : Signature) : larger.has other = (other.same signature || set.has other) := by
  obtain ⟨members, placed, rfl⟩ := Option.map_eq_some_iff.mp inserted
  have permuted := (insertInto?_spec rising placed).2
  rw [Bool.eq_iff_iff]
  simp only [has, List.any_eq_true, permuted.mem_iff, List.mem_cons, Bool.or_eq_true,
    exists_eq_or_imp]

/-- A set answers alike for signatures that are the same. -/
theorem has_congr {left right : Signature} (equal : left.same right = true)
    (set : SignatureSet) : set.has left = set.has right := by
  simp only [has, funext (same_congr equal)]

end SignatureSet

end Stubwright
