import Stubwright.Hierarchy.Spelling

namespace Stubwright

variable {text : List Char} {count : Nat}

def lastAsDollars (count : Nat) : List Char → List Char
  | [] => []
  | c :: rest =>
      (if c = '.' ∧ rest.count '.' < count then '$' else c) :: lastAsDollars count rest

theorem dollarsFirst_append (count : Nat) (front back : List Char) :
    dollarsFirst count (front ++ back) =
      dollarsFirst count front ++ dollarsFirst (count - front.count '.') back := by
  induction front generalizing count with
  | nil =>
      cases count <;> simp [dollarsFirst]
  | cons c rest ih =>
      cases count with
      | zero => simp [dollarsFirst]
      | succ count =>
          rw [List.cons_append, dollarsFirst, dollarsFirst]
          by_cases period : c = '.'
          · rw [if_pos period, if_pos period, ih, period, List.count_cons_self, List.cons_append,
              Nat.add_sub_add_right]
          · rw [if_neg period, if_neg period, ih, List.count_cons_of_ne period, List.cons_append]

theorem dollarsFirst_singleton (count : Nat) (c : Char) :
    dollarsFirst count [c] = [if c = '.' ∧ 0 < count then '$' else c] := by
  cases count with
  | zero => simp [dollarsFirst]
  | succ count => by_cases period : c = '.' <;> cases count <;> simp [dollarsFirst, period]

theorem dollarsLast_eq (count : Nat) (text : List Char) :
    dollarsLast count text = lastAsDollars count text := by
  induction text with
  | nil => cases count <;> rfl
  | cons c rest ih =>
      rw [dollarsLast] at ih
      rw [dollarsLast, List.reverse_cons, dollarsFirst_append, dollarsFirst_singleton,
        List.reverse_append, List.reverse_singleton, ih, lastAsDollars, List.count_reverse,
        List.singleton_append]
      simp only [Nat.sub_pos_iff_lt]

theorem lastAsDollars_zero (text : List Char) : lastAsDollars 0 text = text := by
  induction text with
  | nil => rfl
  | cons c rest ih => simp [lastAsDollars, ih]

theorem count_lastAsDollars (count : Nat) (text : List Char) :
    (lastAsDollars count text).count '.' = text.count '.' - count := by
  induction text with
  | nil => simp [lastAsDollars]
  | cons c rest ih =>
      rw [lastAsDollars]
      by_cases period : c = '.'
      · subst period
        by_cases few : rest.count '.' < count
        · rw [if_pos ⟨rfl, few⟩, List.count_cons_of_ne (by decide), ih, List.count_cons_self]
          omega
        · rw [if_neg (fun both => few both.2), List.count_cons_self, ih, List.count_cons_self]
          omega
      · rw [if_neg (fun both => period both.1), List.count_cons_of_ne period, ih,
          List.count_cons_of_ne period]

def dollarsAsPeriods (text : List Char) : List Char :=
  text.map fun c => if c = '$' then '.' else c

theorem count_dollarsAsPeriods (text : List Char) :
    (dollarsAsPeriods text).count '.' = text.count '.' + text.count '$' := by
  induction text with
  | nil => rfl
  | cons c rest ih =>
      rw [dollarsAsPeriods] at ih
      rw [dollarsAsPeriods, List.map_cons, List.count_cons, ih, List.count_cons, List.count_cons]
      by_cases dollar : c = '$'
      · subst dollar
        simp
        omega
      · simp [dollar]
        omega

/-- With enough of them every period turns into the dollar sign that it was. -/
theorem lastAsDollars_all (noPeriod : '.' ∉ text) (enough : text.count '$' ≤ count) :
    lastAsDollars count (dollarsAsPeriods text) = text := by
  induction text with
  | nil => rfl
  | cons c rest ih =>
      rw [List.mem_cons, not_or] at noPeriod
      have none_behind : (dollarsAsPeriods rest).count '.' = rest.count '$' := by
        rw [count_dollarsAsPeriods, List.count_eq_zero.mpr noPeriod.2, Nat.zero_add]
      have whole : dollarsAsPeriods (c :: rest) =
          (if c = '$' then '.' else c) :: dollarsAsPeriods rest := rfl
      rw [whole, lastAsDollars, none_behind]
      by_cases dollar : c = '$'
      · subst dollar
        rw [List.count_cons_self] at enough
        rw [if_pos ⟨if_pos rfl, enough⟩, ih noPeriod.2 (Nat.le_of_succ_le enough)]
      · rw [List.count_cons_of_ne dollar] at enough
        rw [if_neg dollar, if_neg (fun both => noPeriod.1 both.1.symm), ih noPeriod.2 enough]

def DollarsLast (text : List Char) : Prop :=
  ∀ front back, text = front ++ '$' :: back → '.' ∉ back

theorem DollarsLast.tail {c : Char} (ordered : DollarsLast (c :: text)) : DollarsLast text :=
  fun front back split => ordered (c :: front) back (by rw [split, List.cons_append])

theorem lastAsDollars_dollarsAsPeriods (ordered : DollarsLast text) :
    lastAsDollars (text.count '$') (dollarsAsPeriods text) = text := by
  induction text with
  | nil => rfl
  | cons c rest ih =>
      have whole : dollarsAsPeriods (c :: rest) =
          (if c = '$' then '.' else c) :: dollarsAsPeriods rest := rfl
      rw [whole, lastAsDollars, count_dollarsAsPeriods]
      by_cases dollar : c = '$'
      · subst dollar
        have noPeriod : '.' ∉ rest := ordered [] rest rfl
        have behind : rest.count '.' + rest.count '$' < List.count '$' ('$' :: rest) := by
          rw [List.count_eq_zero.mpr noPeriod, List.count_cons_self]
          omega
        rw [if_pos ⟨if_pos rfl, behind⟩, List.count_cons_self,
          lastAsDollars_all noPeriod (Nat.le_succ _)]
      · have behind : ¬ rest.count '.' + rest.count '$' < List.count '$' (c :: rest) := by
          rw [List.count_cons_of_ne dollar]
          omega
        rw [if_neg dollar, if_neg (fun both => behind both.2), List.count_cons_of_ne dollar,
          ih ordered.tail]

def periods (name : String) : Nat :=
  name.toList.count '.'

def dollars (name : String) : Nat :=
  name.toList.count '$'

/-- A name with its last `count` periods read as dollar signs. -/
def nested (count : Nat) (name : String) : String :=
  String.ofList (lastAsDollars count name.toList)

/-- A name as users write it, with periods all the way. -/
def canonical (name : String) : String :=
  String.ofList (dollarsAsPeriods name.toList)

theorem spellings_eq (name : String) :
    spellings name = (List.range (periods name + 1)).map (nested · name) := by
  simp only [spellings, dollarsLast_eq]
  rfl

theorem nested_zero (name : String) : nested 0 name = name := by
  rw [nested, lastAsDollars_zero, String.ofList_toList]

theorem periods_nested (count : Nat) (name : String) :
    periods (nested count name) = periods name - count := by
  rw [periods, nested, String.toList_ofList, count_lastAsDollars, periods]

/-- Spellings of a name differ, as far as there are periods to turn. -/
theorem nested_inj {name : String} {fewer count : Nat} (few : fewer ≤ periods name)
    (fewToo : count ≤ periods name) (same : nested fewer name = nested count name) :
    fewer = count := by
  have left := congrArg periods same
  rw [periods_nested, periods_nested] at left
  omega

theorem dollars_le_periods_canonical (name : String) : dollars name ≤ periods (canonical name) := by
  rw [periods, canonical, String.toList_ofList, count_dollarsAsPeriods]
  exact Nat.le_add_left _ _

theorem nested_canonical {name : String} (ordered : DollarsLast name.toList) :
    nested (dollars name) (canonical name) = name := by
  rw [nested, canonical, String.toList_ofList, dollars, lastAsDollars_dollarsAsPeriods ordered,
    String.ofList_toList]

theorem spellings_split {name : String} {count : Nat} (few : count ≤ periods name) :
    ∃ others, spellings name =
      (List.range count).map (nested · name) ++ nested count name :: others := by
  have within : count < (List.range (periods name + 1)).length := by
    rw [List.length_range]
    exact Nat.lt_succ_of_le few
  have front : (List.range (periods name + 1)).take count = List.range count := by
    rw [List.take_range, Nat.min_eq_left (Nat.le_succ_of_le few)]
  have back := List.drop_eq_getElem_cons within
  rw [List.getElem_range] at back
  have whole := List.take_append_drop count (List.range (periods name + 1))
  rw [front, back] at whole
  exact ⟨_, by rw [spellings_eq, ← whole, List.map_append, List.map_cons]⟩

end Stubwright
