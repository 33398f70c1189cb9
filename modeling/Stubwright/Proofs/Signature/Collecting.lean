import Stubwright.Proofs.Catalog.TypeSpelling
import Stubwright.Proofs.Signature.Ordering
import Stubwright.Proofs.Text.ByteOrder
import Mathlib.Data.List.Induction
import Mathlib.Data.List.Perm.Basic

namespace Stubwright

open Text

namespace Signature

variable {left right other : Signature}

abbrev Key := String × List String

def key (signature : Signature) : Key :=
  (signature.name, signature.parameterNames)

/-- The order of signatures, read from the left: names, then numbers of parameters, then the first
parameters that differ. Texts are compared byte by byte. -/
inductive Precedes (left right : Signature) : Prop where
  | name (before : Utf8.Precedes left.name right.name)
  | arity (name : left.name = right.name)
      (fewer : left.parameters.length < right.parameters.length)
  | parameter {front tail more : List String} {first second : String} (name : left.name = right.name)
      (arity : left.parameters.length = right.parameters.length)
      (leftNames : left.parameterNames = front ++ first :: tail)
      (rightNames : right.parameterNames = front ++ second :: more)
      (before : Utf8.Precedes first second)

theorem key_eq_iff :
    left.key = right.key ↔
      left.name = right.name ∧ left.parameterNames = right.parameterNames :=
  Prod.mk_inj

theorem same_iff_key : left.same right = true ↔ left.key = right.key := by
  rw [same_iff, key_eq_iff]

/-- Of two lists of one length the first place at which they differ decides. -/
theorem compare_texts_eq_lt {names others : List String} (length : names.length = others.length) :
    Ord.compare names others = .lt ↔ ∃ front first tail second more,
      names = front ++ first :: tail ∧ others = front ++ second :: more ∧
        Utf8.Precedes first second := by
  induction names generalizing others with
  | nil =>
      obtain rfl : others = [] := List.length_eq_zero_iff.mp length.symm
      simp
  | cons name names ih =>
      cases others with
      | nil => simp at length
      | cons other others =>
          rw [List.compare_cons_cons, Ordering.then_eq_lt, Std.LawfulEqOrd.compare_eq_iff_eq,
            Utf8.compare_eq_lt, ih (Nat.succ.inj length)]
          constructor
          · rintro (before | ⟨rfl, front, first, tail, second, more, rfl, rfl, before⟩)
            · exact ⟨[], name, names, other, others, rfl, rfl, before⟩
            · exact ⟨name :: front, first, tail, second, more, rfl, rfl, before⟩
          · rintro ⟨front, first, tail, second, more, here, there, before⟩
            cases front with
            | nil =>
                obtain ⟨rfl, rfl⟩ := List.cons.inj here
                obtain ⟨rfl, rfl⟩ := List.cons.inj there
                exact .inl before
            | cons shared front =>
                obtain ⟨rfl, rfl⟩ := List.cons.inj here
                obtain ⟨rfl, rfl⟩ := List.cons.inj there
                exact .inr ⟨rfl, front, first, tail, second, more, rfl, rfl, before⟩

theorem compare_eq_lt : left.compare right = .lt ↔ left.Precedes right := by
  have names (arity : left.parameters.length = right.parameters.length) :
      left.parameterNames.length = right.parameterNames.length := by
    simpa [parameterNames] using arity
  rw [compare, Ordering.then_eq_lt, Ordering.then_eq_lt, Utf8.compare_eq_lt, Nat.compare_eq_lt,
    Nat.compare_eq_eq, Std.LawfulEqOrd.compare_eq_iff_eq]
  constructor
  · rintro (before | ⟨name, fewer | ⟨arity, before⟩⟩)
    · exact .name before
    · exact .arity name fewer
    · obtain ⟨front, first, tail, second, more, leftNames, rightNames, before⟩ :=
        (compare_texts_eq_lt (names arity)).mp before
      exact .parameter name arity leftNames rightNames before
  · rintro (before | ⟨name, fewer⟩ | ⟨name, arity, leftNames, rightNames, before⟩)
    · exact .inl before
    · exact .inr ⟨name, .inl fewer⟩
    · exact .inr ⟨name, .inr ⟨arity,
        (compare_texts_eq_lt (names arity)).mpr ⟨_, _, _, _, _, leftNames, rightNames, before⟩⟩⟩

def IsSpelled (signature : Signature) : Prop :=
  ∀ type ∈ signature.parameters, type.IsSpelled

def ownerless (signature : Signature) : Signature :=
  { signature with declaringType := "" }

def ofKey (key : Key) : Signature where
  name := key.1
  parameters := key.2.filterMap fun name => (JavaType.parse name).toOption
  declaringType := ""

/-- Parameters that were read are read again from their names. -/
theorem IsSpelled.ofKey_key (spelled : left.IsSpelled) : ofKey left.key = left.ownerless := by
  have read : left.parameterNames.filterMap (fun name => (JavaType.parse name).toOption) =
      left.parameters := by
    have again : ∀ type ∈ left.parameters,
        (JavaType.parse type.binaryName).toOption = some type := by
      intro type member
      rw [JavaType.parse_binaryName (spelled type member)]
      rfl
    rw [parameterNames, List.filterMap_map]
    exact (List.filterMap_congr again).trans List.filterMap_some
  simp only [ofKey, key, read, ownerless]

theorem IsSpelled.key_eq_iff (spelled : left.IsSpelled) (spelledToo : right.IsSpelled) :
    left.key = right.key ↔ left.name = right.name ∧ left.parameters = right.parameters := by
  constructor
  · intro same
    have whole : left.ownerless = right.ownerless := by
      rw [← spelled.ofKey_key, same, spelledToo.ofKey_key]
    simpa [ownerless] using whole
  · rintro ⟨name, parameters⟩
    rw [key, key, parameterNames, parameterNames, name, parameters]

def compareKeys (left right : Key) : Ordering :=
  (Ord.compare left.1 right.1).then <|
    (Ord.compare left.2.length right.2.length).then <| Ord.compare left.2 right.2

instance : Std.TransCmp compareKeys :=
  inferInstanceAs (Std.TransCmp (compareLex (compareOn Prod.fst)
    (compareLex (compareOn fun key : Key => key.2.length) (compareOn Prod.snd))))

theorem compare_eq_compareKeys (left right : Signature) :
    left.compare right = compareKeys left.key right.key := by
  simp [compare, compareKeys, key, parameterNames]

end Signature

namespace SignatureSet

open Signature

variable {set : SignatureSet} {signature member : Signature} {signatures others : List Signature}

def put (set : SignatureSet) (signature : Signature) : SignatureSet :=
  (set.insert? signature).getD set

def ofList (signatures : List Signature) : SignatureSet :=
  signatures.foldl put empty

theorem ofList_concat (signatures : List Signature) (signature : Signature) :
    ofList (signatures ++ [signature]) = (ofList signatures).put signature := by
  rw [ofList, List.foldl_append]
  rfl

theorem rising_put (rising : Rising set.members) (signature : Signature) :
    Rising (set.put signature).members := by
  cases inserted : set.insert? signature with
  | none => rwa [put, inserted]
  | some larger =>
      rw [put, inserted]
      exact insert?_rising rising inserted

theorem has_put (rising : Rising set.members) (signature other : Signature) :
    (set.put signature).has other = (other.same signature || set.has other) := by
  cases inserted : set.insert? signature with
  | none =>
      have met : set.has signature = true := (insert?_eq_none rising).mp inserted
      rw [put, inserted, Option.getD_none]
      cases equal : other.same signature with
      | true => rw [has_congr equal, met, Bool.true_or]
      | false => rw [Bool.false_or]
  | some larger =>
      rw [put, inserted]
      exact has_insert? rising inserted other

theorem mem_put (rising : Rising set.members) :
    member ∈ (set.put signature).members ↔
      member ∈ set.members ∨ set.has signature = false ∧ member = signature := by
  cases inserted : set.insert? signature with
  | none =>
      have met : set.has signature = true := (insert?_eq_none rising).mp inserted
      simp [put, inserted, met]
  | some larger =>
      have unmet : set.has signature = false := by
        rw [← Bool.not_eq_true, ← insert?_eq_none rising, inserted]
        exact Option.some_ne_none larger
      obtain ⟨members, placed, rfl⟩ := Option.map_eq_some_iff.mp inserted
      have permuted := (insertInto?_spec rising placed).2
      rw [put, inserted, Option.getD_some, permuted.mem_iff, List.mem_cons, or_comm]
      simp [unmet]

theorem rising_ofList (signatures : List Signature) : Rising (ofList signatures).members := by
  induction signatures using List.reverseRecOn with
  | nil => exact rising_empty
  | append_singleton front last ih =>
      rw [ofList_concat]
      exact rising_put ih last

theorem has_ofList (signatures : List Signature) (other : Signature) :
    (ofList signatures).has other = signatures.any other.same := by
  induction signatures using List.reverseRecOn with
  | nil => rfl
  | append_singleton front last ih =>
      rw [ofList_concat, has_put (rising_ofList front), ih, List.any_append, Bool.or_comm]
      simp

/-- What is kept is what a search by its own signature finds first. -/
theorem mem_ofList :
    member ∈ (ofList signatures).members ↔ signatures.find? member.same = some member := by
  induction signatures using List.reverseRecOn with
  | nil => simp [ofList, empty]
  | append_singleton front last ih =>
      rw [ofList_concat, mem_put (rising_ofList front), ih, has_ofList, List.find?_append]
      cases found : front.find? member.same with
      | none =>
          have unmet : front.any member.same = false := by
            rw [List.any_eq_false]
            exact List.find?_eq_none.mp found
          constructor
          · rintro (missing | ⟨-, rfl⟩)
            · cases missing
            · simp
          · intro last_found
            obtain rfl : last = member := by
              rw [Option.none_or, List.find?_singleton] at last_found
              split at last_found
              · exact Option.some.inj last_found
              · cases last_found
            exact .inr ⟨unmet, rfl⟩
      | some first =>
          have met : front.any member.same = true :=
            List.any_eq_true.mpr ⟨first, List.mem_of_find?_eq_some found, List.find?_some found⟩
          rw [Option.some_or, or_iff_left]
          rintro ⟨unmet, rfl⟩
          rw [met] at unmet
          cases unmet

theorem find?_same_eq_some :
    signatures.find? member.same = some member ↔
      ∃ earlier later, signatures = earlier ++ member :: later ∧
        ∀ other ∈ earlier, other.key ≠ member.key := by
  have apart (other : Signature) : (!member.same other) = true ↔ other.key ≠ member.key := by
    rw [Bool.not_eq_true', ← Bool.not_eq_true, same_iff_key, ne_comm]
  simp only [List.find?_eq_some_iff_append, same_self, true_and, apart]

theorem mem_keys_ofList {key : Key} :
    key ∈ (ofList signatures).members.map Signature.key ↔ key ∈ signatures.map Signature.key := by
  simp only [List.mem_map]
  constructor
  · rintro ⟨member, kept, rfl⟩
    exact ⟨member, List.mem_of_find?_eq_some (mem_ofList.mp kept), rfl⟩
  · rintro ⟨signature, listed, rfl⟩
    have met : (ofList signatures).has signature = true := by
      rw [has_ofList]
      exact List.any_eq_true.mpr ⟨signature, listed, same_self signature⟩
    obtain ⟨member, kept, equal⟩ := List.any_eq_true.mp met
    exact ⟨member, kept, (same_iff_key.mp equal).symm⟩

theorem keys_eq_of_rising {members others : List Signature} (rising : Rising members)
    (risingToo : Rising others)
    (alike : ∀ key, key ∈ members.map Signature.key ↔ key ∈ others.map Signature.key) :
    members.map Signature.key = others.map Signature.key := by
  have sorted {members : List Signature} (rising : Rising members) :
      (members.map key).Pairwise fun earlier later => compareKeys earlier later = .lt := by
    rw [List.pairwise_map]
    exact rising.imp fun less => (compare_eq_compareKeys _ _).symm.trans less
  have distinct {keys : List Key}
      (sorted : keys.Pairwise fun earlier later => compareKeys earlier later = .lt) :
      keys.Nodup := by
    refine sorted.imp ?_
    rintro earlier _ less rfl
    have itself : compareKeys earlier earlier = .eq := Std.ReflCmp.compare_self
    rw [itself] at less
    cases less
  refine List.Perm.eq_of_pairwise ?_ (sorted rising) (sorted risingToo) ?_
  · intro earlier later _ _ less greater
    exact absurd greater (Std.OrientedCmp.not_lt_of_lt less)
  · exact (List.perm_ext_iff_of_nodup (distinct (sorted rising)) (distinct (sorted risingToo))).mpr
      alike

theorem keys_ofList_of_perm (permuted : signatures.Perm others) :
    (ofList others).members.map key = (ofList signatures).members.map key := by
  refine keys_eq_of_rising (rising_ofList others) (rising_ofList signatures) fun key => ?_
  rw [mem_keys_ofList, mem_keys_ofList, (permuted.map Signature.key).mem_iff]

/-- Without the declaring types the same signatures are kept, if their parameters were read. -/
theorem ownerless_ofList_of_perm (spelled : ∀ signature ∈ signatures, signature.IsSpelled)
    (permuted : signatures.Perm others) :
    (ofList others).members.map ownerless = (ofList signatures).members.map ownerless := by
  have told {listed : List Signature} (spelled : ∀ signature ∈ listed, signature.IsSpelled) :
      (ofList listed).members.map ownerless = ((ofList listed).members.map key).map ofKey := by
    rw [List.map_map]
    refine List.map_congr_left fun member kept => ?_
    have member := List.mem_of_find?_eq_some (mem_ofList.mp kept)
    exact (spelled _ member).ofKey_key.symm
  rw [told spelled, told fun signature listed => spelled signature (permuted.mem_iff.mpr listed),
    keys_ofList_of_perm permuted]

structure KeepsFirst (signatures : List Signature) : Prop where
  inserted : ∀ earlier signature later, signatures = earlier ++ signature :: later →
    ((ofList earlier).insert? signature ≠ none ↔ ∀ other ∈ earlier, other.key ≠ signature.key)
  kept : ∀ member, member ∈ (ofList signatures).members ↔
    ∃ earlier later, signatures = earlier ++ member :: later ∧
      ∀ other ∈ earlier, other.key ≠ member.key
  order : (ofList signatures).members.Pairwise Precedes
  keys : ∀ others, signatures.Perm others →
    (ofList others).members.map key = (ofList signatures).members.map key
  ownerless : (∀ signature ∈ signatures, signature.IsSpelled) → ∀ others, signatures.Perm others →
    (ofList others).members.map ownerless = (ofList signatures).members.map ownerless

theorem keepsFirst (signatures : List Signature) : KeepsFirst signatures where
  inserted := by
    intro earlier signature later _
    rw [Ne, insert?_eq_none (rising_ofList earlier), has_ofList, Bool.not_eq_true,
      List.any_eq_false]
    refine forall₂_congr fun other _ => ?_
    rw [same_iff_key, ne_comm]
  kept := by
    intro member
    rw [mem_ofList, find?_same_eq_some]
  order := (rising_ofList signatures).imp compare_eq_lt.mp
  keys := fun _ => keys_ofList_of_perm
  ownerless := fun spelled _ => ownerless_ofList_of_perm spelled

/-- Signatures are compared by their keys, and a set of them is told by the keys that are put into
it: it keeps the first signature of each key, in the order of the keys. -/
theorem told_by_keys :
    (∀ left right : Signature, left.compare right = .lt ↔ left.Precedes right) ∧
    (∀ left right : Signature, right.compare left = (left.compare right).swap) ∧
    (∀ first second third : Signature, (first.compare second).isLE → (second.compare third).isLE →
      (first.compare third).isLE) ∧
    (∀ left right : Signature, (left.compare right = .eq ↔ left.key = right.key) ∧
      (left.same right = true ↔ left.key = right.key) ∧
      (left.IsSpelled → right.IsSpelled → (left.same right = true ↔
        left.name = right.name ∧ left.parameters = right.parameters))) ∧
    ∀ signatures, KeepsFirst signatures := by
  refine ⟨fun _ _ => compare_eq_lt, fun _ _ => Std.OrientedCmp.eq_swap,
    fun _ _ _ => Std.TransCmp.isLE_trans, fun left right => ?_, keepsFirst⟩
  refine ⟨by rw [compare_eq_eq, key_eq_iff], same_iff_key, fun spelled spelledToo => ?_⟩
  rw [same_iff_key, spelled.key_eq_iff spelledToo]

/-- Methods that differ in a rank, in the number of their parameters and in their names, and one of
them declared again. -/
def overloads : List Signature :=
  [⟨"put", [.primitive .int], "a.Base"⟩, ⟨"put", [.array (.primitive .int) 1], "a.Base"⟩,
    ⟨"put", [], "a.Base"⟩, ⟨"pu", [.reference "java.util.Map$Entry"], "a.Base"⟩,
    ⟨"put", [.primitive .int], "a.Derived"⟩]

/-- Read from behind, the overloads are kept in the same order with another declaring type. -/
theorem told_by_keys_overloads :
    (∀ signature ∈ overloads, signature.IsSpelled) ∧ overloads.Perm overloads.reverse ∧
    (ofList overloads.reverse).members.map ownerless =
      (ofList overloads).members.map ownerless ∧
    (ofList overloads.reverse).members.map (·.declaringType) ≠
      (ofList overloads).members.map (·.declaringType) := by
  have int : (JavaType.primitive .int).IsSpelled := ⟨"int", by decide +kernel⟩
  have ints : (JavaType.array (.primitive .int) 1).IsSpelled := ⟨"int[]", by decide +kernel⟩
  have entry : (JavaType.reference "java.util.Map$Entry").IsSpelled :=
    ⟨"java.util.Map$Entry", by decide +kernel⟩
  have spelled : ∀ signature ∈ overloads, signature.IsSpelled := by
    simp [overloads, IsSpelled, int, ints, entry]
  have permuted : overloads.Perm overloads.reverse := overloads.reverse_perm.symm
  obtain ⟨-, -, -, -, keeps⟩ := told_by_keys
  exact ⟨spelled, permuted, (keeps overloads).ownerless spelled _ permuted, by decide +kernel⟩

end SignatureSet

end Stubwright
